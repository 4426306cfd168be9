import TapeMachine.Index
import TapeMachine.Instruction

/-!
# Machine code

What the machine fetches from is an array of words. Compiled programs hold instructions only;
code put together by hand may also hold values that are no instructions at all, and running or
printing those is an error of its own.
-/

namespace TapeMachine

/-- A value that stands in code and is no instruction. -/
inductive Foreign where
  | nothing
  | flag (value : Bool)
  | number (value : Int)
  | text (value : String)
deriving DecidableEq, Inhabited

/-- One word of code. -/
inductive Word where
  | instruction (instruction : Instruction)
  | foreign (value : Foreign)
deriving DecidableEq, Inhabited

/-- The code that a machine runs. -/
abbrev Code :=
  Array Word

/-- A program as code: every word is an instruction. -/
def Program.code (program : Program) : Code :=
  program.map .instruction

/-- Why no instruction can be fetched. -/
inductive FetchFault where
  | noWord (kind : IndexFault)
  | foreign (value : Foreign)
deriving DecidableEq, Inhabited

/-- The instruction that the program counter `index` addresses. -/
def Code.fetch (code : Code) (index : Int) : Except FetchFault Instruction :=
  match resolveIndex code.size index with
  | .error kind => .error (.noWord kind)
  | .ok position =>
      match code[position] with
      | .instruction instruction => .ok instruction
      | .foreign value => .error (.foreign value)

end TapeMachine
