import TapeMachine.Arguments
import TapeMachine.Evaluate
import TapeMachine.FileTree

/-!
# The command line

`CommandLine.run` runs a source file between an input and an output stream. It reads the
arguments, then the file, then compiles, then executes with a prompting console, and flushes the
output once at the end whatever happened before. A failure of that last flush takes the place of
any earlier failure.
-/

namespace TapeMachine.CommandLine

/-- The arguments: a request for help, or the path of a source. -/
def grammar : Arguments.Grammar :=
  ⟨[⟨["-h", "--help"], .help⟩], ["source"]⟩

/-- The usage line. -/
def usage : String :=
  "usage: bfvm [-h] source\n"

/-- The help text. -/
def help : String :=
  usage ++ "\n" ++
  "Run a Brainfuck program against stdin/stdout\n" ++
  "\n" ++
  "positional arguments:\n" ++
  "  source      Path to Brainfuck source file\n" ++
  "\n" ++
  "options:\n" ++
  "  -h, --help  show this help message and exit\n"

/-- The complaint about arguments. -/
def complaint (message : String) : String :=
  usage ++ "bfvm: error: " ++ message ++ "\n"

/-- The complaint about a path at which there is nothing. -/
def notFound (path : String) : String :=
  "Source file not found: " ++ path ++ "\n"

/-- The complaint about a path at which there is a directory. -/
def notFile (path : String) : String :=
  "[Errno 21] Is a directory: " ++ Text.quoted (Path.ofText path).render ++ "\n"

/-- The complaint about a path that is too long, or that has too long a name in it. -/
def tooLong (path : String) : String :=
  "[Errno 36] File name too long: " ++ Text.quoted (Path.ofText path).render ++ "\n"

/-- The complaint about a source that is refused. -/
def malformed (fault : BracketFault) : String :=
  "Parse error: " ++ fault.message ++ "\n"

/-- The complaint about an execution that failed. -/
def failed (fault : ConsoleFault) : String :=
  "Runtime error: " ++ fault.message ++ "\n"

/-- How a run ends: with an exit code, with a fault that is no failure of input or output, or
not at all. -/
inductive Ending where
  | exit (code : Nat)
  | escaped (fault : Fault ConsoleFault)
  | unfinished
deriving DecidableEq, Inhabited

/-- What a run leaves behind: its ending, the bytes delivered to the output stream, the text
printed there, the text printed for errors, the stream calls, and the log entries. -/
structure Report where
  ending : Ending
  output : Array UInt8
  text : String
  errors : String
  events : Array StreamEvent
  entries : List LogEntry

/-- The report of a run that stops before any stream call. -/
def Report.early (code : Nat) (text errors : String) : Report :=
  ⟨.exit code, #[], text, errors, #[], []⟩

/-- The ending and the complaint that a fault comes to. -/
def endingOf (fault : Fault ConsoleFault) : Ending × String :=
  match fault with
  | .device refusal =>
      if refusal.isTransfer then (.exit 1, failed refusal) else (.escaped fault, "")
  | _ => (.escaped fault, "")

/-- The ending and the complaint of an execution whose last flush succeeded. -/
def endingOfOutcome : Outcome ConsoleFault → Ending × String
  | .finished => (.exit 0, "")
  | .faulted fault => endingOf fault
  | .limitReached _ | .unfinished => (.unfinished, "")

/-- Execute a program on a console, and flush at the end. -/
def execute (patience : Nat) (program : Program) (console : Console) : Report :=
  let tape := Tape.blank defaultTapeSize defaultTapeSize_pos
  let (outcome, machine) := (Machine.start tape console).executeWithin patience program.code none
  let entries := LogEntry.ofExecute (outcome, machine)
  let (flushed, console) := machine.store.device.flush
  let (ending, errors) :=
    match flushed with
    | .error fault => endingOf (.device fault)
    | .ok () => endingOfOutcome outcome
  ⟨ending, console.delivered, "", errors, console.events, entries⟩

/-- Compile a source and execute it between streams. -/
def runSource (patience : Nat) (source : Source) (input : Script) (schedule : Schedule) :
    Report :=
  match compile source with
  | .error fault => .early 1 "" (malformed fault)
  | .ok program =>
      let console := Console.start (.stream input true) (.stream schedule 0 0)
      let report := execute patience program console
      { report with entries := .compiled source.length program.size :: report.entries }

/-- Run the command line. -/
def run (patience : Nat) (arguments : List String) (tree : FileTree) (input : Script)
    (schedule : Schedule) : Report :=
  match grammar.read arguments with
  | .error .help => .early 0 help ""
  | .error (.complaint message) => .early 2 "" (complaint message)
  | .ok reading =>
      let path := (reading.positionals.lookup "source").getD ""
      match tree.find (Path.ofText path) with
      | .missing => .early 1 "" (notFound path)
      | .directory => .early 1 "" (notFile path)
      | .tooLong => .early 1 "" (tooLong path)
      | .file source => runSource patience source input schedule

end TapeMachine.CommandLine
