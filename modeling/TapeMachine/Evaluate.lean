import TapeMachine.Compile
import TapeMachine.Log

/-!
# Evaluating a source in memory

`evaluate` compiles a source and runs it on a blank tape, with its input from a buffer and its
output to memory. The result is the whole output of a program that ends by itself; output before
a failure is dropped.
-/

namespace TapeMachine

/-- Why a source has no result. -/
inductive Failure where
  | malformed (fault : BracketFault)
  | noTape (fault : TapeFault)
  | limitReached (limit : Int)
  | faulted (fault : Fault ConsoleFault)
  | notByte
  | unfinished
deriving DecidableEq, Inhabited

/-- The message for a failure. -/
def Failure.message : Failure → String
  | malformed fault => fault.message
  | noTape fault => fault.message
  | limitReached limit => limitMessage limit
  | faulted fault => fault.message
  | notByte => ConsoleFault.notByte.message
  | unfinished => "Execution did not finish"

/-- The failure that an outcome stands for, if it is one. -/
def Outcome.failure? : Outcome ConsoleFault → Option Failure
  | finished => none
  | limitReached limit => some (.limitReached limit)
  | faulted fault => some (.faulted fault)
  | unfinished => some .unfinished

/-- The fuel for an execution: what is left up to its step limit, which is always enough, and
otherwise the patience of the caller. -/
def fuelFor (patience : Nat) (limit : Option Int) (steps : Int) : Nat :=
  match limit with
  | none => patience
  | some bound => (bound - steps).toNat + 1

/-- Execute on a console with the fuel that belongs to the limit. -/
def Machine.executeWithin (patience : Nat) (code : Code) (limit : Option Int)
    (machine : Machine Console) : Outcome ConsoleFault × Machine Console :=
  machine.execute code limit (fuelFor patience limit machine.steps)

/-- The output of a source run on `input`, and what is logged meanwhile. Without a step limit
the run has as much fuel as the caller has patience. The memory has room for `memory` cells. -/
def evaluate (patience memory : Nat) (source : Source) (input : List UInt8) (tapeSize : Int)
    (limit : Option Int) : Except Failure (Array UInt8) × List LogEntry :=
  match compile source with
  | .error fault => (.error (.malformed fault), [])
  | .ok program =>
      let compiled := LogEntry.compiled source.length program.size
      match Machine.fresh memory tapeSize (Console.ofInput input) with
      | .error fault => (.error (.noTape fault), [compiled])
      | .ok machine =>
          let (outcome, machine) := machine.executeWithin patience program.code limit
          let entries := compiled :: LogEntry.ofExecute (outcome, machine)
          match outcome.failure? with
          | some failure => (.error failure, entries)
          | none => (.ok machine.store.device.delivered, entries)

end TapeMachine
