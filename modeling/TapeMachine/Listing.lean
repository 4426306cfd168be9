import TapeMachine.Code

/-!
# Listings

A listing shows a program as a table: one row for each instruction, with its index, the name of
its operation, and in four columns the operands that the operation has.
-/

namespace TapeMachine

/-- A row of a listing. A column without a value is `none`. -/
structure Row where
  index : Nat
  operation : String
  delta : Option Int
  offset : Option Int
  close : Option Int
  start : Option Int
deriving DecidableEq, Inhabited

/-- The row of an instruction. -/
def Instruction.row (index : Nat) : Instruction → Row
  | .command (.add delta) => ⟨index, "add", some delta, none, none, none⟩
  | .command (.move delta) => ⟨index, "move", some delta, some (signedOffset delta), none, none⟩
  | .command .write => ⟨index, "write", none, none, none, none⟩
  | .command .read => ⟨index, "read", none, none, none, none⟩
  | .loopStart close => ⟨index, "loop_start", none, none, some close, none⟩
  | .loopEnd start => ⟨index, "loop_end", none, none, none, some start⟩

/-- The listing of instructions whose first has the given index. -/
def rowsFrom (index : Nat) (instructions : List Instruction) : List Row :=
  (instructions.zipIdx index).map fun entry ↦ entry.1.row entry.2

/-- The listing of a program. -/
def Program.listing (program : Program) : List Row :=
  rowsFrom 0 program.toList

/-- The instructions of code, or the first word of it that is none. -/
def Code.instructions (code : Code) : Except Foreign (List Instruction) :=
  code.toList.mapM fun
    | .instruction instruction => .ok instruction
    | .foreign value => .error value

/-- The listing of code, or the first word of it that is no instruction. -/
def Code.listing (code : Code) : Except Foreign (List Row) :=
  code.instructions.map (rowsFrom 0)

end TapeMachine
