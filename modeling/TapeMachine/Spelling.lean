import TapeMachine.Capacity
import TapeMachine.Code
import TapeMachine.Source

/-!
# Spelling instructions as operators

Every instruction has a shortest spelling. A change of the cell is spelt in the direction that
needs fewer operators, upwards when both need the same; a move is spelt by its signed offset. A
change or move by nothing is spelt as a cancelling pair, so that it is still there when the
spelling is read again. Instructions are spelt one by one: two that stand side by side are not
joined.

`Code.spell` spells code of any size. `Code.spellWithin` also refuses code whose operators, taken
together, are more than the memory has room for or than a machine word counts. It counts them
before it spells anything.
-/

namespace TapeMachine

/-- The operators of a command. -/
def Command.spell : Command → List Operator
  | .add delta =>
      let residue := (delta % cellModulus).toNat
      if residue = 0 then [.increment, .decrement]
      else if residue ≤ 128 then List.replicate residue .increment
      else List.replicate (256 - residue) .decrement
  | .move delta =>
      let offset := signedOffset delta
      if offset = 0 then [.right, .left]
      else if 0 < offset then List.replicate offset.toNat .right
      else List.replicate (-offset).toNat .left
  | .write => [.output]
  | .read => [.input]

/-- The operators of an instruction. Loop targets are not spelt: the brackets say them. -/
def Instruction.spell : Instruction → List Operator
  | .command c => c.spell
  | .loopStart _ => [.opening]
  | .loopEnd _ => [.closing]

/-- The operators of a program. -/
def Program.spell (program : Program) : List Operator :=
  program.toList.flatMap Instruction.spell

/-- The operators of words in order, or the first of them that is no instruction. -/
def spellWords : List Word → Except Foreign (List Operator)
  | [] => .ok []
  | .foreign value :: _ => .error value
  | .instruction instruction :: rest =>
      match spellWords rest with
      | .error value => .error value
      | .ok ops => .ok (instruction.spell ++ ops)

/-- The operators of code, or the first word of it that is no instruction. -/
def Code.spell (code : Code) : Except Foreign (List Operator) :=
  spellWords code.toList

/-! ## Limited memory -/

/-- The number of operators of a command. -/
def Command.spellLength : Command → Nat
  | .add delta =>
      let residue := (delta % cellModulus).toNat
      if residue = 0 then 2 else if residue ≤ 128 then residue else 256 - residue
  | .move delta => if signedOffset delta = 0 then 2 else (signedOffset delta).natAbs
  | .write | .read => 1

/-- The number of operators of an instruction. -/
def Instruction.spellLength : Instruction → Nat
  | .command c => c.spellLength
  | .loopStart _ | .loopEnd _ => 1

/-- A command is spelt by as many operators as are counted. -/
theorem Command.length_spell (c : Command) : c.spell.length = c.spellLength := by
  cases c with
  | add delta =>
      simp only [spell, spellLength]
      split
      · rfl
      · split <;> rw [List.length_replicate]
  | move delta =>
      simp only [spell, spellLength]
      split
      · rfl
      · split <;> rw [List.length_replicate] <;> omega
  | write | read => rfl

/-- An instruction is spelt by as many operators as are counted. -/
theorem Instruction.length_spell (instruction : Instruction) :
    instruction.spell.length = instruction.spellLength := by
  cases instruction with
  | command c => exact c.length_spell
  | loopStart | loopEnd => rfl

/-- Why code cannot be spelt: a word of it is no instruction, or there is no room for the operators
of a word, or the text of all of them is too long. -/
inductive SpellingFault where
  | foreign (value : Foreign)
  | oversized (fault : CapacityFault)
deriving DecidableEq, Inhabited

/-- Why words cannot be spelt where the memory has room for `memory` operators, `spelt` of which are
those of the words before. The first word that cannot be spelt says what is wrong. What has been
spelt is put together at the end, to a text that can still be too long. -/
def spellingFault? (memory spelt : Nat) : List Word → Option SpellingFault
  | [] => (capacityFault? memory spelt).map .oversized
  | .foreign value :: _ => some (.foreign value)
  | .instruction instruction :: rest =>
      ((capacityFault? (memory - spelt) instruction.spellLength).map .oversized).or
        (spellingFault? memory (spelt + instruction.spellLength) rest)

/-- The operators of code where the memory has room for `memory` operators in all, or why they
cannot be spelt. -/
def Code.spellWithin (memory : Nat) (code : Code) : Except SpellingFault (List Operator) :=
  match spellingFault? memory 0 code.toList with
  | some fault => .error fault
  | none => code.spell.mapError .foreign

end TapeMachine
