import TapeMachine.Console

/-!
# Calls of a console

The calls that can be made to the reader and the writer of a console from outside, one by one or
in a row.
-/

namespace TapeMachine.Console

/-- A call of a console from outside. -/
inductive Call where
  | write (value : Int)
  | flush
  | read
deriving DecidableEq, Inhabited

/-- Make a call. A read answers with the integer read, the other calls with nothing. -/
def call (console : Console) : Call → Except ConsoleFault (Option Int) × Console
  | .write value =>
      match console.write value with
      | (.error fault, console) => (.error fault, console)
      | (.ok (), console) => (.ok none, console)
  | .flush =>
      match console.flush with
      | (.error fault, console) => (.error fault, console)
      | (.ok (), console) => (.ok none, console)
  | .read =>
      match console.read with
      | (.error fault, console) => (.error fault, console)
      | (.ok value, console) => (.ok (some value), console)

/-- Make calls one after the other, whatever comes of them. -/
def callAll (console : Console) : List Call → List (Except ConsoleFault (Option Int)) × Console
  | [] => ([], console)
  | call :: rest =>
      let (result, console) := console.call call
      let (results, console) := console.callAll rest
      (result :: results, console)

end TapeMachine.Console
