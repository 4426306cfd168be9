import TapeMachine.Message
import TapeMachine.Source.Brackets

/-!
# Log entries

The events that the components report while they work, and the line that each one writes:
severity, component and message.
-/

namespace TapeMachine

/-- An event worth a line in the log. -/
inductive LogEntry where
  | compiled (bytes instructions : Nat)
  | finished (steps pointer : Int)
  | rejected (fault : BracketFault)
  | aborted (steps limit : Int)
  | failed (index : Int) (message : String)
  | evicted (id : String)
deriving DecidableEq, Inhabited

/-- The line of an event. -/
def LogEntry.render : LogEntry → String
  | compiled bytes instructions =>
      s!"DEBUG bfvm.parser: Parsed {bytes} source bytes into {instructions} instructions"
  | finished steps pointer =>
      s!"DEBUG bfvm.runtime: Execution finished after {steps} steps (pointer={pointer})"
  | rejected fault => "INFO bfvm.webui.app: Rejected program: " ++ fault.message
  | aborted steps limit =>
      s!"INFO bfvm.webui.app: Run aborted after {steps} steps: " ++ limitMessage limit
  | failed index message =>
      s!"INFO bfvm.webui.app: Run failed at instruction {index}: {message}"
  | evicted id => s!"INFO bfvm.webui.registry: Evicted program {id} (registry full)"

/-- What compiling a source reports: its size and the number of instructions. A source that is
refused is not reported. -/
def LogEntry.ofCompile (source : Source) (result : Except BracketFault Program) : List LogEntry :=
  match result with
  | .ok program => [.compiled source.length program.size]
  | .error _ => []

/-- What an execution reports: an end that is no failure. -/
def LogEntry.ofExecute {σ ε : Type} (result : Outcome ε × Machine σ) : List LogEntry :=
  match result with
  | (.finished, machine) => [.finished machine.steps machine.store.pointer]
  | _ => []

end TapeMachine
