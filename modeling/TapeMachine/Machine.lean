import TapeMachine.Code
import TapeMachine.Device
import TapeMachine.Tape

/-!
# The machine

A machine has a store (tape, head and device), a program counter and a count of the
instructions executed. `Machine.next` executes one instruction; `Machine.execute` repeats it
until the program counter has passed the code, an instruction fails, or the step count has
reached its limit.

An instruction that fails is not counted and leaves the program counter on itself, so execution
can be taken up again there. The head is an integer that a `move` reduces modulo the size of the
tape; between moves it may also have been set to a negative position, which counts from the end.
-/

namespace TapeMachine

/-- The number of cells of a tape whose size is not given. -/
def defaultTapeSize : Nat :=
  30000

/-- The default size can be the size of a tape. -/
theorem defaultTapeSize_pos : 0 < defaultTapeSize := by
  decide

/-- What the commands of a program act on. -/
structure Store (σ : Type) where
  tape : Tape
  pointer : Int
  device : σ

/-- Why an instruction cannot be executed: there is none at the program counter, there is no
cell under the head, or the device refuses the call. -/
inductive Fault (ε : Type) where
  | fetch (fault : FetchFault)
  | noCell (kind : IndexFault)
  | device (fault : ε)
deriving DecidableEq, Inhabited

variable {σ ε : Type} [Device σ ε]

namespace Store

/-- Perform a command. A failed command changes neither tape nor head. A `read` takes its byte
from the device first and looks for the cell afterwards, a `write` the other way round. -/
def perform : Command → Store σ → Except (Fault ε) Unit × Store σ
  | .add delta, ⟨tape, pointer, device⟩ =>
      match resolveIndex tape.size pointer with
      | .error kind => (.error (.noCell kind), ⟨tape, pointer, device⟩)
      | .ok cell =>
          (.ok (), ⟨tape.set cell (tape.get cell + UInt8.ofInt delta), pointer, device⟩)
  | .move delta, ⟨tape, pointer, device⟩ =>
      (.ok (), ⟨tape, (pointer + signedOffset delta) % tape.size, device⟩)
  | .write, ⟨tape, pointer, device⟩ =>
      match resolveIndex tape.size pointer with
      | .error kind => (.error (.noCell kind), ⟨tape, pointer, device⟩)
      | .ok cell =>
          match Device.write (tape.get cell) device with
          | (.error fault, device) => (.error (.device fault), ⟨tape, pointer, device⟩)
          | (.ok (), device) => (.ok (), ⟨tape, pointer, device⟩)
  | .read, ⟨tape, pointer, device⟩ =>
      match Device.read device with
      | (.error fault, device) => (.error (.device fault), ⟨tape, pointer, device⟩)
      | (.ok value, device) =>
          match resolveIndex tape.size pointer with
          | .error kind => (.error (.noCell kind), ⟨tape, pointer, device⟩)
          | .ok cell => (.ok (), ⟨tape.set cell (UInt8.ofInt value), pointer, device⟩)

/-- The value under the head. -/
def current (store : Store σ) : Except (Fault ε) UInt8 :=
  match resolveIndex store.tape.size store.pointer with
  | .error kind => .error (.noCell kind)
  | .ok cell => .ok (store.tape.get cell)

/-- Obey the instruction at `index` and answer with the index where execution stands then. The
loop instructions test the cell under the head and stand at their partner after a jump. -/
def obey (index : Int) : Instruction → Store σ → Except (Fault ε) Int × Store σ
  | .command command, store =>
      match store.perform command with
      | (.error fault, store) => (.error fault, store)
      | (.ok (), store) => (.ok index, store)
  | .loopStart close, store =>
      match store.current with
      | .error fault => (.error fault, store)
      | .ok value => (.ok (if value = 0 then close else index), store)
  | .loopEnd start, store =>
      match store.current with
      | .error fault => (.error fault, store)
      | .ok value => (.ok (if value = 0 then index else start), store)

end Store

/-- A machine: its store, the program counter and the number of instructions executed. -/
structure Machine (σ : Type) where
  store : Store σ
  index : Int
  steps : Int

/-- How an execution ends: past the last instruction, at the step limit, at an instruction that
failed, or not within the fuel given. -/
inductive Outcome (ε : Type) where
  | finished
  | limitReached (limit : Int)
  | faulted (fault : Fault ε)
  | unfinished
deriving DecidableEq, Inhabited

namespace Machine

/-- The machine that starts a program at its first instruction and the first cell. -/
def start (tape : Tape) (device : σ) : Machine σ :=
  ⟨⟨tape, 0, device⟩, 0, 0⟩

/-- The machine that starts a program on a blank tape of `size` cells, where the memory has room
for `memory` cells. -/
def fresh (memory : Nat) (size : Int) (device : σ) : Except TapeFault (Machine σ) :=
  (Tape.make memory size).map fun tape ↦ start tape device

/-- Execute one instruction: the one at the program counter. Execution goes on just past the
index where the instruction leaves it. -/
def next (code : Code) : Machine σ → Except (Fault ε) Unit × Machine σ
  | ⟨store, index, steps⟩ =>
      match code.fetch index with
      | .error fault => (.error (.fetch fault), ⟨store, index, steps⟩)
      | .ok instruction =>
          match store.obey index instruction with
          | (.error fault, store) => (.error fault, ⟨store, index, steps⟩)
          | (.ok target, store) => (.ok (), ⟨store, target + 1, steps + 1⟩)

/-- Execute until the end of the code, a fault or the step limit, but no more instructions than
the fuel. The limit applies to the accumulated step count, and only where the program counter
has not passed the code. -/
def execute (code : Code) (limit : Option Int) : Nat → Machine σ → Outcome ε × Machine σ
  | 0, machine => (.unfinished, machine)
  | fuel + 1, machine =>
      if machine.index < code.size then
        match limit.filter fun bound ↦ bound ≤ machine.steps with
        | some bound => (.limitReached bound, machine)
        | none =>
            match machine.next code with
            | (.error fault, machine) => (.faulted fault, machine)
            | (.ok (), machine) => execute code limit fuel machine
      else
        (.finished, machine)

end Machine

end TapeMachine
