import TapeMachine.Capacity

/-!
# The tape

A tape is a fixed, positive number of byte cells. Every cell of a blank tape is zero.
-/

namespace TapeMachine

/-- A tape: its cells in order, at least one. -/
structure Tape where
  cells : Array UInt8
  nonempty : 0 < cells.size

/-- Why a tape of some size cannot be made: the size is not positive, or too large. -/
inductive TapeFault where
  | notPositive
  | oversized (fault : CapacityFault)
deriving DecidableEq, Inhabited

namespace Tape

/-- The number of cells. -/
abbrev size (tape : Tape) : Nat :=
  tape.cells.size

/-- The blank tape with a positive number of cells. -/
def blank (size : Nat) (size_pos : 0 < size) : Tape :=
  ⟨Array.replicate size 0, by simpa using size_pos⟩

/-- The blank tape with `size` cells where the memory has room for `memory` cells. -/
def make (memory : Nat) (size : Int) : Except TapeFault Tape :=
  if h : 0 < size then
    match capacityFault? memory size with
    | some fault => .error (.oversized fault)
    | none => .ok (blank size.toNat (toNat_pos h))
  else
    .error .notPositive

/-- The value of a cell. -/
def get (tape : Tape) (cell : Fin tape.size) : UInt8 :=
  tape.cells[cell]

/-- The tape after one cell has been overwritten. -/
def set (tape : Tape) (cell : Fin tape.size) (value : UInt8) : Tape :=
  ⟨tape.cells.set cell value, by simpa using tape.nonempty⟩

/-- Overwriting a cell keeps the number of cells. -/
@[simp] theorem size_set (tape : Tape) (cell : Fin tape.size) (value : UInt8) :
    (tape.set cell value).size = tape.size :=
  Array.size_set cell.isLt

/-- A blank tape has the number of cells asked for. -/
@[simp] theorem size_blank (size : Nat) (size_pos : 0 < size) :
    (blank size size_pos).size = size :=
  Array.size_replicate

/-- A tape that could be made has the number of cells asked for. -/
theorem size_of_make {memory : Nat} {size : Int} {tape : Tape} (h : make memory size = .ok tape) :
    (tape.size : Int) = size := by
  unfold make at h
  split at h
  · split at h
    · cases h
    · cases h
      rw [size_blank]
      omega
  · cases h

/-- The cells below `bound` that are not zero, with their positions, in front of later ones. -/
def marksBelow (tape : Tape) :
    (bound : Nat) → bound ≤ tape.size → List (Nat × UInt8) → List (Nat × UInt8)
  | 0, _, later => later
  | cell + 1, bound_le, later =>
      let value := tape.get ⟨cell, bound_le⟩
      marksBelow tape cell (Nat.le_of_succ_le bound_le)
        (if value = 0 then later else (cell, value) :: later)

/-- The cells that are not zero, with their positions, in order. -/
def marks (tape : Tape) : List (Nat × UInt8) :=
  tape.marksBelow tape.size (Nat.le_refl _) []

end Tape

end TapeMachine
