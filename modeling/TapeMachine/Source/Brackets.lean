/-!
# Faults in the brackets of a source

A source is accepted when its brackets pair up. A source that is not accepted has a bracket without
a partner, and the fault names the position of one.
-/

namespace TapeMachine

/-- How the brackets of a source can fail to pair up, with the position of the bracket. -/
inductive BracketFault where
  | unopened (position : Nat)
  | unclosed (position : Nat)
deriving DecidableEq, Inhabited

namespace BracketFault

/-- The position of the bracket without a partner. -/
def position : BracketFault → Nat
  | unopened position => position
  | unclosed position => position

/-- The message for the fault. -/
def message : BracketFault → String
  | unopened position => s!"Unmatched ']' at position {position}"
  | unclosed position => s!"Unmatched '[' at position {position}"

end BracketFault

end TapeMachine
