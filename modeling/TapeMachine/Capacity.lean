import TapeMachine.Index

/-!
# Capacity

How long a sequence can be. Its length is a machine word, and the memory has room for it. A
length that is no machine word is refused before the memory is looked at.
-/

namespace TapeMachine

/-- Why a sequence of some length cannot be made: no machine word can hold the length, or the
memory has no room for the sequence. -/
inductive CapacityFault where
  | unrepresentable
  | exhausted
deriving DecidableEq, Inhabited

/-- The fault of a sequence of `length` elements where the memory has room for `memory` of
them, if there is one. -/
def capacityFault? (memory : Nat) (length : Int) : Option CapacityFault :=
  if ¬ fitsWord length then some .unrepresentable
  else if length ≤ memory then none
  else some .exhausted

/-- A length has no fault where it is a machine word and there is room for it. -/
theorem capacityFault?_eq_none_iff {memory : Nat} {length : Int} :
    capacityFault? memory length = none ↔ fitsWord length ∧ length ≤ memory := by
  unfold capacityFault?
  split
  · simp_all
  · split <;> simp_all

end TapeMachine
