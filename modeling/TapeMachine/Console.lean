import TapeMachine.Device
import TapeMachine.Stream

/-!
# Consoles

A console pairs a reader with a writer and serves a machine as its device. Readers draw on a
buffer, on a list of integers or on an input stream; writers collect bytes in memory or pass
them to an output stream. A stream writer flushes after every newline. A stream reader that
prompts flushes the writer before every read, so nothing written is held back while the program
waits for input.

System failures of a stream become faults of the console that name the activity that failed;
what a stream rejects as invalid is passed on as it is.
-/

namespace TapeMachine

/-- Where a console takes its input from. -/
inductive Reader where
  | buffer (rest : List UInt8)
  | values (rest : List Int)
  | stream (script : Script) (prompt : Bool)

/-- Where a console sends its output, with the numbers of writes and flushes tried so far. -/
inductive Writer where
  | buffer
  | stream (schedule : Schedule) (writes flushes : Nat)

/-- A reader, a writer, the bytes delivered so far, and the trace of all stream calls. -/
structure Console where
  reader : Reader
  writer : Writer
  delivered : Array UInt8
  events : Array StreamEvent

/-- Why a console refuses a call. -/
inductive ConsoleFault where
  | endOfInput
  | readFailed (message : String)
  | writeFailed (message : String)
  | flushFailed (message : String)
  | notByte
  | notStreamByte
  | rejected (message : String)
deriving DecidableEq, Inhabited

/-- The message for a refusal. -/
def ConsoleFault.message : ConsoleFault → String
  | endOfInput => "Input exhausted"
  | readFailed message => s!"Failed to read input: {message}"
  | writeFailed message => s!"Failed to write output: {message}"
  | flushFailed message => s!"Failed to flush output: {message}"
  | notByte => "byte must be in range(0, 256)"
  | notStreamByte => "bytes must be in range(0, 256)"
  | rejected message => message

/-- The fault is a failure of input or output, and not an argument or a call refused as
invalid. -/
def ConsoleFault.isTransfer : ConsoleFault → Bool
  | endOfInput | readFailed _ | writeFailed _ | flushFailed _ => true
  | notByte | notStreamByte | rejected _ => false

/-- A stream failure as a fault of the console; `activity` names what failed. -/
def ConsoleFault.ofStream (activity : String → ConsoleFault) : StreamFault → ConsoleFault
  | .system message => activity message
  | .invalid message => rejected message

namespace Console

/-- A console that has done nothing yet. -/
def start (reader : Reader) (writer : Writer) : Console :=
  ⟨reader, writer, #[], #[]⟩

/-- The console that reads the given bytes and collects its output in memory. -/
def ofInput (input : List UInt8) : Console :=
  start (.buffer input) .buffer

/-- Try to flush the output stream. A writer that collects in memory has nothing to flush. -/
def tryFlush : Console → Except StreamFault Unit × Console
  | ⟨reader, .buffer, delivered, events⟩ => (.ok (), ⟨reader, .buffer, delivered, events⟩)
  | ⟨reader, .stream schedule writes flushes, delivered, events⟩ =>
      let writer := .stream schedule writes (flushes + 1)
      match schedule.flush flushes with
      | some fault => (.error fault, ⟨reader, writer, delivered, events.push .flushFailed⟩)
      | none => (.ok (), ⟨reader, writer, delivered, events.push .flushed⟩)

/-- Flush the writer. -/
def flush (console : Console) : Except ConsoleFault Unit × Console :=
  match console.tryFlush with
  | (.error fault, console) => (.error (.ofStream .flushFailed fault), console)
  | (.ok (), console) => (.ok (), console)

/-- Write a byte. A flush that fails after a newline is a failed write, though the newline has
been delivered by then. -/
def writeByte (value : UInt8) : Console → Except ConsoleFault Unit × Console
  | ⟨reader, .buffer, delivered, events⟩ =>
      (.ok (), ⟨reader, .buffer, delivered.push value, events⟩)
  | ⟨reader, .stream schedule writes flushes, delivered, events⟩ =>
      let writer := .stream schedule (writes + 1) flushes
      match schedule.write writes with
      | some fault =>
          (.error (.ofStream .writeFailed fault),
            ⟨reader, writer, delivered, events.push (.writeFailed value)⟩)
      | none =>
          let console := ⟨reader, writer, delivered.push value, events.push (.wrote value)⟩
          if value = 0x0A then
            match tryFlush console with
            | (.error fault, console) => (.error (.ofStream .writeFailed fault), console)
            | (.ok (), console) => (.ok (), console)
          else
            (.ok (), console)

/-- Write an integer as a byte. What is no byte is refused before any stream is called. -/
def write (value : Int) (console : Console) : Except ConsoleFault Unit × Console :=
  if 0 ≤ value ∧ value < 256 then
    console.writeByte (UInt8.ofInt value)
  else
    match console.writer with
    | .buffer => (.error .notByte, console)
    | .stream .. => (.error .notStreamByte, console)

/-- Take the next item of a script. -/
def readScript (script : Script) (prompt : Bool) : Console → Except ConsoleFault Int × Console
  | ⟨_, writer, delivered, events⟩ =>
      match script with
      | [] =>
          (.error .endOfInput,
            ⟨.stream [] prompt, writer, delivered, events.push .readNothing⟩)
      | .nothing :: rest =>
          (.error .endOfInput,
            ⟨.stream rest prompt, writer, delivered, events.push .readNothing⟩)
      | .failure fault :: rest =>
          (.error (.ofStream .readFailed fault),
            ⟨.stream rest prompt, writer, delivered, events.push .readFailed⟩)
      | .byte value :: rest =>
          (.ok value.toNat,
            ⟨.stream rest prompt, writer, delivered, events.push (.readByte value)⟩)

/-- Read one byte. A reader that prompts flushes the writer first and does not touch its stream
when that fails. -/
def read : Console → Except ConsoleFault Int × Console
  | ⟨.buffer [], writer, delivered, events⟩ =>
      (.error .endOfInput, ⟨.buffer [], writer, delivered, events⟩)
  | ⟨.buffer (value :: rest), writer, delivered, events⟩ =>
      (.ok value.toNat, ⟨.buffer rest, writer, delivered, events⟩)
  | ⟨.values [], writer, delivered, events⟩ =>
      (.error .endOfInput, ⟨.values [], writer, delivered, events⟩)
  | ⟨.values (value :: rest), writer, delivered, events⟩ =>
      (.ok value, ⟨.values rest, writer, delivered, events⟩)
  | ⟨.stream script true, writer, delivered, events⟩ =>
      match flush ⟨.stream script true, writer, delivered, events⟩ with
      | (.error fault, console) => (.error fault, console)
      | (.ok (), console) => readScript script true console
  | ⟨.stream script false, writer, delivered, events⟩ =>
      readScript script false ⟨.stream script false, writer, delivered, events⟩

/-- A console serves a machine by its byte calls. -/
instance : Device Console ConsoleFault where
  read := read
  write := writeByte

end Console

end TapeMachine
