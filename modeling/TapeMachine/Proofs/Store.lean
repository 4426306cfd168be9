import TapeMachine.Machine

/-!
# Stores that obey and stores that refuse

`Store.Refused` says why a store refuses an instruction and which calls it has made to its device by
then; the tape and the head stay as they are.

`Store.InBounds` is the invariant of every store that a machine comes to: the tape has the size
that it was made with, and the head stands on one of its cells. No instruction breaks it,
`InBounds.obey`, and under it the store refuses an instruction only where the device refuses the
call that a command makes, `InBounds.refused_of_obey`.
-/

namespace TapeMachine

/-- A byte that has been taken for an integer is that byte again. -/
@[simp] theorem ofInt_toNat (value : UInt8) : UInt8.ofInt value.toNat = value := by
  have hlt := value.toNat_lt
  rw [UInt8.ofInt, Int.emod_eq_of_lt (by omega) (by omega)]
  simp

namespace Tape

variable (tape : Tape) {cell : Nat} (hcell : cell < tape.size) (value later : UInt8)

/-- A cell holds what was written to it. -/
@[simp] theorem get_set_self (h : cell < (tape.set ⟨cell, hcell⟩ value).size) :
    (tape.set ⟨cell, hcell⟩ value).get ⟨cell, h⟩ = value := by
  simp [get, set]

/-- Of two values written to a cell, the second counts. -/
@[simp] theorem set_set (h : cell < (tape.set ⟨cell, hcell⟩ value).size) :
    (tape.set ⟨cell, hcell⟩ value).set ⟨cell, h⟩ later = tape.set ⟨cell, hcell⟩ later := by
  simp [set]

end Tape

/-- The device refuses the call that a command makes with this fault, and is left in this state. -/
def Command.RefusedBy {σ ε : Type} [Device σ ε] (c : Command) (device : σ) (fault : ε)
    (left : σ) : Prop :=
  match c with
  | read => Device.read device = (.error fault, left)
  | write => ∃ value, Device.write value device = (.error fault, left)
  | add _ | move _ => False

/-- The device refuses a read or a write with this fault, and is left in this state. -/
def Device.Refuses {σ ε : Type} [Device σ ε] (device : σ) (fault : ε) (left : σ) : Prop :=
  Device.read device = (.error fault, left) ∨
    ∃ value, Device.write value device = (.error fault, left)

/-- A device that refuses the call of a command refuses a read or a write. -/
theorem Command.RefusedBy.refuses {σ ε : Type} [Device σ ε] {c : Command} {device left : σ}
    {fault : ε} (h : c.RefusedBy device fault left) : Device.Refuses device fault left := by
  cases c with
  | add | move => cases h
  | write => exact .inr h
  | read => exact .inl h

/-- The device is left as it was, or in the state in which one call that succeeds leaves it. -/
inductive Device.Yields {σ ε : Type} [Device σ ε] (device : σ) : σ → Prop where
  | idle : Device.Yields device device
  | read {value : Int} {left : σ} (h : Device.read device = (.ok value, left)) :
      Device.Yields device left
  | write {value : UInt8} {left : σ} (h : Device.write value device = (.ok (), left)) :
      Device.Yields device left

variable {σ ε : Type}

/-- The tape has `size` cells, and the head stands on one of them. -/
structure Store.InBounds (size : Nat) (store : Store σ) : Prop where
  tape_size : store.tape.size = size
  pointer_nonneg : 0 ≤ store.pointer
  pointer_lt : store.pointer < size

namespace Store

variable {size : Nat} {store left : Store σ}

/-- A head on the tape addresses the cell that it stands on. -/
theorem InBounds.resolveIndex_eq (h : store.InBounds size) :
    ∃ cell, resolveIndex store.tape.size store.pointer = .ok cell := by
  have hlt : store.pointer < store.tape.size := by
    rw [h.tape_size]
    exact h.pointer_lt
  exact ⟨_, resolveIndex_of_lt h.pointer_nonneg hlt⟩

/-- A head on the tape has a value under it. -/
theorem InBounds.current_eq (h : store.InBounds size) :
    ∃ value, (store.current : Except (Fault ε) UInt8) = .ok value := by
  obtain ⟨cell, hcell⟩ := h.resolveIndex_eq
  exact ⟨store.tape.get cell, by simp [current, hcell]⟩

variable [Device σ ε] {fault : Fault ε}

/-- No command takes the head off the tape, also not when it fails. -/
theorem InBounds.perform (h : store.InBounds size) (c : Command) :
    (store.perform c).2.InBounds size := by
  obtain ⟨cell, hcell⟩ := h.resolveIndex_eq
  obtain ⟨tape, pointer, device⟩ := store
  cases c with
  | add delta =>
      simp only [Store.perform, hcell]
      exact ⟨by simpa using h.tape_size, h.pointer_nonneg, h.pointer_lt⟩
  | move delta =>
      have hpos : (0 : Int) < tape.size := by
        have hnonempty : 0 < tape.size := tape.nonempty
        omega
      have hlt := Int.emod_lt_of_pos (pointer + signedOffset delta) hpos
      rw [h.tape_size] at hlt
      exact ⟨h.tape_size, Int.emod_nonneg _ (by omega), by simpa [Store.perform, h.tape_size]⟩
  | write =>
      rcases hwrite : Device.write (tape.get cell) device with ⟨_ | _, after⟩ <;>
        simp only [Store.perform, hcell, hwrite] <;>
        exact ⟨h.tape_size, h.pointer_nonneg, h.pointer_lt⟩
  | read =>
      rcases hread : Device.read device with ⟨_ | value, after⟩
      · simp only [Store.perform, hread]
        exact ⟨h.tape_size, h.pointer_nonneg, h.pointer_lt⟩
      · simp only [Store.perform, hread, hcell]
        exact ⟨by simpa using h.tape_size, h.pointer_nonneg, h.pointer_lt⟩

/-- A command that is performed is obeyed. -/
theorem obey_of_perform_ok {c : Command} (h : store.perform c = (.ok (), left)) (index : Int) :
    store.obey index (.command c) = (.ok index, left) := by
  simp [obey, h]

/-- A command that is not performed is not obeyed. -/
theorem obey_of_perform_error {c : Command} (h : store.perform c = (.error fault, left))
    (index : Int) : store.obey index (.command c) = (.error fault, left) := by
  simp [obey, h]

/-- A command that is not performed leaves the tape and the head as they are. -/
theorem perform_error {c : Command} (h : store.perform c = (.error fault, left)) :
    left = ⟨store.tape, store.pointer, left.device⟩ := by
  obtain ⟨tape, pointer, device⟩ := store
  cases c with
  | add | move | write | read =>
      simp only [Store.perform] at h
      repeat' split at h
      all_goals cases h
      all_goals rfl

/-- An instruction that is refused leaves the tape and the head as they are. -/
theorem obey_error {index : Int} {instruction : Instruction}
    (h : store.obey index instruction = (.error fault, left)) :
    left = ⟨store.tape, store.pointer, left.device⟩ := by
  cases instruction with
  | command c =>
      rcases hperform : store.perform c with ⟨_ | _, after⟩
      · simp only [obey, hperform, Prod.mk.injEq] at h
        obtain ⟨-, rfl⟩ := h
        exact perform_error hperform
      · simp [obey, hperform] at h
  | loopStart | loopEnd =>
      simp only [obey] at h
      split at h <;> cases h
      rfl

/-- Why a store refuses an instruction, and the device that is left then. A read calls the device
before it looks for a cell, so it is the one instruction that can fail behind a call that has
succeeded. -/
inductive Refused (store : Store σ) : Instruction → Fault ε → σ → Prop where
  | noCell {instruction : Instruction} {kind : IndexFault} (hread : instruction ≠ .command .read)
      (hcell : resolveIndex store.tape.size store.pointer = .error kind) :
      Refused store instruction (.noCell kind) store.device
  | write {value : UInt8} {refusal : ε} {after : σ}
      (hcurrent : (store.current : Except (Fault ε) UInt8) = .ok value)
      (hwrite : Device.write value store.device = (.error refusal, after)) :
      Refused store (.command .write) (.device refusal) after
  | read {refusal : ε} {after : σ} (hread : Device.read store.device = (.error refusal, after)) :
      Refused store (.command .read) (.device refusal) after
  | lost {value : Int} {kind : IndexFault} {after : σ}
      (hread : Device.read store.device = (.ok value, after))
      (hcell : resolveIndex store.tape.size store.pointer = .error kind) :
      Refused store (.command .read) (.noCell kind) after

/-- What can have gone wrong with a command that is not performed. -/
theorem refused_of_perform {c : Command} (h : store.perform c = (.error fault, left)) :
    store.Refused (.command c) fault left.device := by
  obtain ⟨tape, pointer, device⟩ := store
  cases c with
  | add delta =>
      simp only [Store.perform] at h
      split at h <;> cases h
      exact .noCell nofun ‹_›
  | move delta => cases h
  | write =>
      simp only [Store.perform] at h
      split at h
      · cases h
        exact .noCell nofun ‹_›
      · rename_i cell hcell
        have hcurrent : ((⟨tape, pointer, device⟩ : Store σ).current : Except (Fault ε) UInt8) =
            .ok (tape.get cell) := by
          simp [current, hcell]
        split at h <;> cases h
        exact .write hcurrent ‹_›
  | read =>
      simp only [Store.perform] at h
      split at h
      · cases h
        exact .read ‹_›
      · split at h <;> cases h
        exact .lost ‹_› ‹_›

/-- What can have gone wrong with an instruction that is not obeyed. -/
theorem refused_of_obey {index : Int} {instruction : Instruction}
    (h : store.obey index instruction = (.error fault, left)) :
    store.Refused instruction fault left.device := by
  cases instruction with
  | command c =>
      rcases hperform : store.perform c with ⟨_ | _, after⟩
      · simp only [obey, hperform, Prod.mk.injEq, Except.error.injEq] at h
        obtain ⟨rfl, rfl⟩ := h
        exact refused_of_perform hperform
      · simp [obey, hperform] at h
  | loopStart | loopEnd =>
      cases hcell : resolveIndex store.tape.size store.pointer with
      | error kind =>
          simp only [obey, current, hcell, Prod.mk.injEq, Except.error.injEq] at h
          obtain ⟨rfl, rfl⟩ := h
          exact .noCell nofun hcell
      | ok cell => simp [obey, current, hcell] at h

/-- A command that is performed makes at most one call to the device, and this one succeeds. -/
theorem yields_of_perform {c : Command} (h : store.perform c = (.ok (), left)) :
    Device.Yields store.device left.device := by
  obtain ⟨tape, pointer, device⟩ := store
  cases c with
  | add delta =>
      simp only [Store.perform] at h
      split at h <;> cases h
      exact .idle
  | move delta =>
      cases h
      exact .idle
  | write =>
      simp only [Store.perform] at h
      split at h
      · cases h
      · split at h <;> cases h
        exact .write ‹_›
  | read =>
      simp only [Store.perform] at h
      split at h
      · cases h
      · split at h <;> cases h
        exact .read ‹_›

/-- An instruction that is obeyed makes at most one call to the device, and this one succeeds. -/
theorem yields_of_obey {index target : Int} {instruction : Instruction}
    (h : store.obey index instruction = (.ok target, left)) :
    Device.Yields store.device left.device := by
  cases instruction with
  | command c =>
      rcases hperform : store.perform c with ⟨_ | _, after⟩
      · simp [obey, hperform] at h
      · simp only [obey, hperform, Prod.mk.injEq] at h
        obtain ⟨-, rfl⟩ := h
        exact yields_of_perform hperform
  | loopStart | loopEnd =>
      simp only [obey] at h
      split at h <;> cases h
      exact .idle

/-- Obeying an instruction keeps the head on the tape. -/
theorem InBounds.obey (h : store.InBounds size) (index : Int) (instruction : Instruction) :
    (store.obey index instruction).2.InBounds size := by
  cases instruction with
  | command c =>
      have hafter := h.perform c
      rcases hperform : store.perform c with ⟨_ | _, after⟩ <;>
        simpa [Store.obey, hperform] using hafter
  | loopStart | loopEnd =>
      obtain ⟨value, hvalue⟩ : ∃ value, (store.current : Except (Fault ε) UInt8) = .ok value :=
        h.current_eq
      simpa [Store.obey, hvalue] using h

/-- With its head on the tape, a store refuses an instruction only where this is a command and the
device refuses its call. -/
theorem InBounds.refused_of_obey (h : store.InBounds size) {index : Int}
    {instruction : Instruction} (hobey : store.obey index instruction = (.error fault, left)) :
    ∃ c refusal, instruction = .command c ∧ fault = .device refusal ∧
      c.RefusedBy store.device refusal left.device := by
  obtain ⟨cell, hcell⟩ := h.resolveIndex_eq
  have hrefused := Store.refused_of_obey hobey
  generalize left.device = after at hrefused ⊢
  cases hrefused with
  | noCell _ hnone | lost _ hnone => cases hcell.symm.trans hnone
  | write _ hwrite => exact ⟨.write, _, rfl, rfl, _, hwrite⟩
  | read hread => exact ⟨.read, _, rfl, rfl, hread⟩

end Store

end TapeMachine
