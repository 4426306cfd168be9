import TapeMachine.Evaluate

/-!
# Monitoring a machine

Actions from outside on a machine that stands between two instructions: let it execute, assign
its registers, overwrite a cell, flush its writer. Assigned registers are not checked. An action
that fails leaves the machine in the state that the failure came to.
-/

namespace TapeMachine.Monitor

/-- An action on a machine. -/
inductive Action where
  | execute (limit : Option Int)
  | assign (index pointer steps : Option Int)
  | poke (cell value : Int)
  | flush

/-- Overwrite a cell. An integer too large for any address is refused before the value is
looked at, a position outside the tape after it. -/
def poke (cell value : Int) : Machine Console → Except Failure Unit × Machine Console
  | ⟨⟨tape, pointer, device⟩, index, steps⟩ =>
      match resolveIndex tape.size cell with
      | .error kind =>
          let failure :=
            if kind = .outOfRange ∧ ¬ (0 ≤ value ∧ value < 256) then .notByte
            else .faulted (.noCell kind)
          (.error failure, ⟨⟨tape, pointer, device⟩, index, steps⟩)
      | .ok position =>
          if 0 ≤ value ∧ value < 256 then
            (.ok (), ⟨⟨tape.set position (UInt8.ofInt value), pointer, device⟩, index, steps⟩)
          else
            (.error .notByte, ⟨⟨tape, pointer, device⟩, index, steps⟩)

/-- Perform an action: what came of it, the machine afterwards, and what is logged. -/
def perform (patience : Nat) (code : Code) (action : Action) (machine : Machine Console) :
    Except Failure Unit × Machine Console × List LogEntry :=
  match action with
  | .execute limit =>
      let (outcome, machine) := machine.executeWithin patience code limit
      let entries := LogEntry.ofExecute (outcome, machine)
      match outcome.failure? with
      | some failure => (.error failure, machine, entries)
      | none => (.ok (), machine, entries)
  | .assign index pointer steps =>
      let store := { machine.store with pointer := pointer.getD machine.store.pointer }
      (.ok (), ⟨store, index.getD machine.index, steps.getD machine.steps⟩, [])
  | .poke cell value =>
      let (result, machine) := poke cell value machine
      (result, machine, [])
  | .flush =>
      let ⟨⟨tape, pointer, device⟩, index, steps⟩ := machine
      match device.flush with
      | (.error fault, device) =>
          (.error (.faulted (.device fault)), ⟨⟨tape, pointer, device⟩, index, steps⟩, [])
      | (.ok (), device) => (.ok (), ⟨⟨tape, pointer, device⟩, index, steps⟩, [])

end TapeMachine.Monitor
