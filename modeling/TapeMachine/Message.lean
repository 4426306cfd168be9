import TapeMachine.Console
import TapeMachine.Machine
import TapeMachine.Spelling
import TapeMachine.Text.Quoted

/-!
# Messages of failed executions

The wording of every fault of the machine, and of its refusals to take a setting.
-/

namespace TapeMachine

/-- A foreign value as it is shown in messages. -/
def Foreign.render : Foreign → String
  | nothing => "None"
  | flag true => "True"
  | flag false => "False"
  | number value => toString value
  | text value => Text.quoted value

/-- The message for a value that is no instruction. -/
def Foreign.message (value : Foreign) : String :=
  "Unknown instruction: " ++ value.render

/-- The message for an integer that no machine word can hold. -/
def noWordMessage : String :=
  "cannot fit 'int' into an index-sized integer"

/-- The message for an integer that addresses nothing in the sequence named. -/
def IndexFault.message (sequence : String) : IndexFault → String
  | outOfRange => s!"{sequence} index out of range"
  | unrepresentable => noWordMessage

/-- The message for code that has no instruction at the program counter. -/
def FetchFault.message : FetchFault → String
  | noWord kind => kind.message "list"
  | foreign value => value.message

/-- The message for an integer that addresses no cell. -/
def IndexFault.cellMessage (kind : IndexFault) : String :=
  kind.message "bytearray"

/-- The message for a failed instruction on a console. -/
def Fault.message : Fault ConsoleFault → String
  | fetch fault => fault.message
  | noCell kind => kind.cellMessage
  | device fault => fault.message

/-- The message for reaching a step limit. -/
def limitMessage (limit : Int) : String :=
  s!"Program exceeded allowed step count ({limit})"

/-- The message for a sequence that is too long. A lack of memory goes without words. -/
def CapacityFault.message : CapacityFault → String
  | unrepresentable => noWordMessage
  | exhausted => ""

/-- The message for a tape that cannot be made. -/
def TapeFault.message : TapeFault → String
  | notPositive => "tape_size must be positive"
  | oversized fault => fault.message

/-- The message for code that cannot be spelt. -/
def SpellingFault.message : SpellingFault → String
  | foreign value => value.message
  | oversized fault => fault.message

end TapeMachine
