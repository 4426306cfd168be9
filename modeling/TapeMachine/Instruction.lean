/-!
# Instructions of the tape machine

A program is an array of instructions for a machine with one cyclic tape of byte cells and one
head. The four commands act on the tape and the device beside it; the two loop instructions
hold the index of their partner, so a jump needs no search. Deltas and targets are arbitrary
integers: `signedOffset` and the byte arithmetic of the cells give every one of them a meaning.
-/

namespace TapeMachine

/-- The number of values that a cell can hold. -/
def cellModulus : Int :=
  256

/-- The number of values of a pointer word: displacements are kept modulo `2 ^ 64`. -/
def pointerModulus : Int :=
  18446744073709551616

/-- The commands that never jump: change the current cell, move the head, send the current cell
to the device, and fill the current cell from the device. -/
inductive Command where
  | add (delta : Int)
  | move (delta : Int)
  | write
  | read
deriving DecidableEq, Inhabited

/-- One instruction. A `loopStart` names the index of its `loopEnd` and conversely. -/
inductive Instruction where
  | command (command : Command)
  | loopStart (close : Int)
  | loopEnd (start : Int)
deriving DecidableEq, Inhabited

/-- A program: its instructions in order, addressed by index from zero. -/
abbrev Program :=
  Array Instruction

/-- The displacement that a pointer word stands for. Words in the upper half of the range are
negative, as in two's complement; integers outside the range of a word are not reduced first. -/
def signedOffset (delta : Int) : Int :=
  if pointerModulus / 2 ≤ delta then delta - pointerModulus else delta

/-- The offset of a pointer word lies in the range of a signed word. -/
theorem signedOffset_bounds {delta : Int} (hlow : 0 ≤ delta) (hhigh : delta < pointerModulus) :
    -(pointerModulus / 2) ≤ signedOffset delta ∧ signedOffset delta < pointerModulus / 2 := by
  have hmodulus : pointerModulus = 18446744073709551616 := rfl
  simp only [signedOffset, hmodulus] at *
  split <;> omega

/-- An offset stands for the same pointer word as the integer that it is the offset of. -/
theorem signedOffset_emod_modulus (delta : Int) :
    signedOffset delta % pointerModulus = delta % pointerModulus := by
  have hmodulus : pointerModulus = 18446744073709551616 := rfl
  simp only [signedOffset, hmodulus]
  split <;> omega

end TapeMachine
