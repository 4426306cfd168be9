import TapeMachine.CommandLine

/-!
# The program

Runs a source file between standard input and standard output. The machine works in slices: what
it has written is passed on after each slice, and where it stops for want of input it is taken
up again with one byte more.
-/

namespace TapeMachine.CommandLine

/-- The number of instructions between two looks at the output. -/
def sliceLength : Nat :=
  100000

/-- The bytes of a source file, or the complaint about its path. -/
def readSource (path : String) : IO (Except String Source) := do
  try
    let bytes ← IO.FS.readBinFile path
    return .ok bytes.toList
  catch
    | .noFileOrDirectory .. => return .error (notFound path)
    | .inappropriateType .. => return .error (notFile path)
    | .invalidArgument _ 36 _ => return .error (tooLong path)
    | fault => return .error (toString fault ++ "\n")

/-- Pass the delivered bytes on to a stream and flush it. -/
def drain (output : IO.FS.Stream) (console : Console) : IO (Except ConsoleFault Console) := do
  try
    output.write ⟨console.delivered⟩
  catch fault => return .error (.writeFailed (toString fault))
  try
    output.flush
  catch fault => return .error (.flushFailed (toString fault))
  return .ok { console with delivered := #[], events := #[] }

/-- The next byte of a stream. -/
def readByte (input : IO.FS.Stream) : IO (Except ConsoleFault UInt8) := do
  try
    let bytes ← input.read 1
    return (bytes.toList.head?).elim (.error .endOfInput) .ok
  catch fault => return .error (.readFailed (toString fault))

/-- Report a fault and give the exit code. -/
def fail (fault : Fault ConsoleFault) : IO UInt32 := do
  IO.eprint ("Runtime error: " ++ fault.message ++ "\n")
  return 1

/-- Execute a program slice by slice. -/
partial def drive (input output : IO.FS.Stream) (code : Code) (machine : Machine Console) :
    IO UInt32 := do
  let (outcome, machine) := machine.execute code none sliceLength
  match ← drain output machine.store.device with
  | .error fault => fail (.device fault)
  | .ok console =>
      let taken (console : Console) : Machine Console :=
        { machine with store := { machine.store with device := console } }
      match outcome with
      | .unfinished => drive input output code (taken console)
      | .faulted (.device .endOfInput) =>
          match ← readByte input with
          | .error fault => fail (.device fault)
          | .ok value =>
              drive input output code
                (taken { console with reader := .stream [.byte value] true })
      | .faulted fault => fail fault
      | .finished | .limitReached _ => return 0

/-- Run the command line on the real files and streams. -/
def perform (arguments : List String) : IO UInt32 := do
  match grammar.read arguments with
  | .error .help =>
      IO.print help
      return 0
  | .error (.complaint message) =>
      IO.eprint (complaint message)
      return 2
  | .ok reading =>
      match ← readSource ((reading.positionals.lookup "source").getD "") with
      | .error message =>
          IO.eprint message
          return 1
      | .ok source =>
          match compile source with
          | .error fault =>
              IO.eprint (malformed fault)
              return 1
          | .ok program =>
              let console := Console.start (.stream [] true) (.stream .reliable 0 0)
              let tape := Tape.blank defaultTapeSize defaultTapeSize_pos
              drive (← IO.getStdin) (← IO.getStdout) program.code (Machine.start tape console)

end TapeMachine.CommandLine

/-- The program: exit code 0 after a complete run, 1 after a failure, 2 after a usage error. -/
def main (arguments : List String) : IO UInt32 :=
  TapeMachine.CommandLine.perform arguments
