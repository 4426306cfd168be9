/-!
# Source text

A source is a sequence of bytes. Eight of them are operators and all others are comments. A
source given as text stands for the bytes of its characters up to `U+00FF`; characters above
that have no byte and do not count in positions either.
-/

namespace TapeMachine

/-- A source: its bytes in order. Positions in error messages are byte offsets. -/
abbrev Source :=
  List UInt8

/-- The eight operators. -/
inductive Operator where
  | increment
  | decrement
  | right
  | left
  | output
  | input
  | opening
  | closing
deriving DecidableEq, Inhabited

namespace Operator

/-- The character that denotes an operator. -/
def char : Operator → Char
  | increment => '+'
  | decrement => '-'
  | right => '>'
  | left => '<'
  | output => '.'
  | input => ','
  | opening => '['
  | closing => ']'

/-- The byte that denotes an operator. -/
def byte : Operator → UInt8
  | increment => 0x2B
  | decrement => 0x2D
  | right => 0x3E
  | left => 0x3C
  | output => 0x2E
  | input => 0x2C
  | opening => 0x5B
  | closing => 0x5D

/-- The operator that a byte denotes, if it is none of the comment bytes. -/
def ofByte? (b : UInt8) : Option Operator :=
  if b = 0x2B then some increment
  else if b = 0x2D then some decrement
  else if b = 0x3E then some right
  else if b = 0x3C then some left
  else if b = 0x2E then some output
  else if b = 0x2C then some input
  else if b = 0x5B then some opening
  else if b = 0x5D then some closing
  else none

/-- Every operator is read back from its byte. -/
@[simp] theorem ofByte?_byte (op : Operator) : ofByte? op.byte = some op := by
  cases op <;> rfl

/-- Operators in order, as source bytes. -/
def toSource (ops : List Operator) : Source :=
  ops.map byte

/-- Operators in order, as text. -/
def toText (ops : List Operator) : String :=
  String.ofList (ops.map char)

end Operator

namespace Source

/-- The bytes of a text: one for each character up to `U+00FF`, none for the others. -/
def ofText (text : String) : Source :=
  text.toList.filterMap fun c ↦
    if c.toNat < 256 then some (UInt8.ofNat c.toNat) else none

/-- The operators of a source, in order and without the comments. -/
def operators (source : Source) : List Operator :=
  source.filterMap Operator.ofByte?

/-- Printing operators and reading them again changes nothing. -/
@[simp] theorem operators_toSource (ops : List Operator) :
    operators (Operator.toSource ops) = ops := by
  induction ops with
  | nil => rfl
  | cons op rest ih =>
      have hcons : operators (Operator.toSource (op :: rest)) =
          op :: operators (Operator.toSource rest) := by
        simp [operators, Operator.toSource]
      rw [hcons, ih]

/-- Comments and operators of two sources do not interact. -/
@[simp] theorem operators_append (first second : Source) :
    operators (first ++ second) = operators first ++ operators second :=
  List.filterMap_append

end Source

end TapeMachine
