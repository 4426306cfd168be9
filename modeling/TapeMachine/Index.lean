/-!
# Positions counted from either end

Cells and instructions are addressed by integers. A negative integer counts from the end, so
`-1` is the last position; everything outside `-length ≤ i < length` is a fault.
-/

namespace TapeMachine

/-- Why an integer addresses no position: it lies outside the sequence, or it is so large that
no machine word can hold it. -/
inductive IndexFault where
  | outOfRange
  | unrepresentable
deriving DecidableEq, Inhabited

/-- The integer fits a signed word of 64 bits. -/
def fitsWord (i : Int) : Prop :=
  -9223372036854775808 ≤ i ∧ i < 9223372036854775808

/-- `fitsWord` is decidable by two integer comparisons. -/
instance (i : Int) : Decidable (fitsWord i) :=
  inferInstanceAs (Decidable (_ ∧ _))

/-- What is not longer than a word allows fits as well. -/
theorem fitsWord_of_le {n m : Nat} (h : n ≤ m) (hm : fitsWord m) : fitsWord n := by
  unfold fitsWord at hm ⊢
  omega

/-- A positive integer is a positive number. -/
theorem toNat_pos {i : Int} (h : 0 < i) : 0 < i.toNat :=
  Int.pos_iff_toNat_pos.mp h

/-- The position that `i` addresses in a sequence of `length` elements. -/
def resolveIndex (length : Nat) (i : Int) : Except IndexFault (Fin length) :=
  let fromFront := if i < 0 then i + length else i
  if h : 0 ≤ fromFront ∧ fromFront < length then
    .ok ⟨fromFront.toNat, by omega⟩
  else if fitsWord i then
    .error .outOfRange
  else
    .error .unrepresentable

/-- An integer that already lies in the sequence addresses itself. -/
theorem resolveIndex_of_lt {length : Nat} {i : Int} (h : 0 ≤ i) (hlt : i < length) :
    resolveIndex length i = .ok ⟨i.toNat, by omega⟩ := by
  have hneg : ¬ i < 0 := by omega
  simp [resolveIndex, hneg, h, hlt]

/-- A negative integer not below `-length` counts from the end. -/
theorem resolveIndex_of_neg {length : Nat} {i : Int} (h : i < 0) (hle : -length ≤ i) :
    resolveIndex length i = .ok ⟨(i + length).toNat, by omega⟩ := by
  have hfront : 0 ≤ i + length ∧ i + length < length := by omega
  simp [resolveIndex, h, hfront]

end TapeMachine
