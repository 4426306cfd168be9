import TapeMachine.Source

/-!
# Calls of the HTTP service

What a client can ask for, once a request has been found valid: compile a program, run one, store
one, and fetch, run or delete a stored one.
-/

namespace TapeMachine.Api

/-- The largest number of steps that a run may be allowed. -/
def maxStepLimit : Nat :=
  50000000

/-- The number of steps of a run that does not say. -/
def defaultStepLimit : Nat :=
  5000000

/-- The largest tape that a run may have. -/
def maxTapeSize : Nat :=
  1000000

/-- The options of a run, within the bounds of the service. -/
structure RunOptions where
  input : List UInt8
  stepLimit : Nat
  tapeSize : Nat
  stepLimit_pos : 1 ≤ stepLimit
  stepLimit_le : stepLimit ≤ maxStepLimit
  tapeSize_pos : 1 ≤ tapeSize
  tapeSize_le : tapeSize ≤ maxTapeSize

/-- A valid call. -/
inductive Call where
  | parse (code : String)
  | run (code : String) (options : RunOptions)
  | create (code : String)
  | fetch (id : String)
  | delete (id : String)
  | runStored (id : String) (options : RunOptions)

end TapeMachine.Api
