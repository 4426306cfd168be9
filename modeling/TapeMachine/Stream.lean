import TapeMachine.Text.Hex

/-!
# Streams

The byte streams behind a console. An output stream follows a schedule that says which of its
calls fail; an input stream follows a script that says what each read returns. Every call leaves
one event in a trace, also a failed one.
-/

namespace TapeMachine

/-- How a stream call fails: the system refuses it, or the stream rejects it as invalid. -/
inductive StreamFault where
  | system (message : String)
  | invalid (message : String)
deriving DecidableEq, Inhabited

/-- A call of a stream and what came of it. -/
inductive StreamEvent where
  | wrote (value : UInt8)
  | writeFailed (value : UInt8)
  | flushed
  | flushFailed
  | readByte (value : UInt8)
  | readNothing
  | readFailed
deriving DecidableEq, Inhabited

/-- The short form of an event in a trace: `w`, `f` or `r`, the byte if there is one, and an
exclamation mark after a failure. -/
def StreamEvent.render : StreamEvent → String
  | wrote value => String.ofList ('w' :: Text.hexByte value)
  | writeFailed value => String.ofList ('w' :: Text.hexByte value ++ ['!'])
  | flushed => "f"
  | flushFailed => "f!"
  | readByte value => String.ofList ('r' :: Text.hexByte value)
  | readNothing => "r-"
  | readFailed => "r!"

/-- Which calls of an output stream fail. Writes and flushes are numbered apart, from zero, and
failed calls count. -/
structure Schedule where
  write : Nat → Option StreamFault
  flush : Nat → Option StreamFault

namespace Schedule

/-- The calls of an output stream. -/
inductive Call where
  | write
  | flush
deriving DecidableEq, Inhabited

/-- No call fails. -/
def reliable : Schedule :=
  ⟨fun _ ↦ none, fun _ ↦ none⟩

/-- One more call fails. An earlier entry for the same call gives way. -/
def add (schedule : Schedule) (call : Call) (number : Nat) (fault : StreamFault) : Schedule :=
  match call with
  | .write =>
      { schedule with write := fun n ↦ if n = number then some fault else schedule.write n }
  | .flush =>
      { schedule with flush := fun n ↦ if n = number then some fault else schedule.flush n }

end Schedule

/-- What one read of an input stream meets: a byte, no data, or a failure. -/
inductive ScriptItem where
  | byte (value : UInt8)
  | nothing
  | failure (fault : StreamFault)
deriving DecidableEq, Inhabited

/-- What the reads of an input stream meet, in order. After the end there is no data. -/
abbrev Script :=
  List ScriptItem

end TapeMachine
