import TapeMachine.Evaluate
import TapeMachine.Proofs.Machine.Budget
import TapeMachine.Proofs.Machine.Lockstep
import TapeMachine.Proofs.Machine.Safety

/-!
# Programs with their input and output in memory

A compiled program that starts on a blank tape, reads from a buffer and writes to memory can end in
three ways, `ends_ofInput_cases`: it finishes, it reaches its limit, or it stands at a read with
no input left. Evaluating a source is such an execution, `evaluate_eq`.
-/

namespace TapeMachine

section Keeps

variable {σ ε : Type} [Device σ ε] {P : σ → Prop}

/-- What holds of a device holds of it after every call, also after one that is refused. -/
structure Device.Keeps (P : σ → Prop) : Prop where
  read {device : σ} (h : P device) : P (Device.read device).2
  write (value : UInt8) {device : σ} (h : P device) : P (Device.write value device).2

/-- A device is in lockstep with itself, and keeps what its calls keep meanwhile. -/
theorem Device.Keeps.lockstep (hP : Device.Keeps P) :
    Device.Lockstep fun device other : σ ↦ device = other ∧ P device := by
  constructor
  · rintro device _ ⟨rfl, h⟩
    exact ⟨_, _, _, rfl, rfl, rfl, hP.read h⟩
  · rintro value device _ ⟨rfl, h⟩
    exact ⟨_, _, _, rfl, rfl, rfl, hP.write value h⟩

/-- Obeying an instruction makes no other use of the device than its calls. -/
theorem Device.Keeps.obey (hP : Device.Keeps P) {store : Store σ} (h : P store.device)
    (index : Int) (instruction : Instruction) :
    P (store.obey index instruction).2.device := by
  obtain ⟨_, _, _, hobey, _, hafter⟩ :=
    hP.lockstep.store.obey (.mk store.tape store.pointer ⟨rfl, h⟩) index instruction
  rw [hobey]
  cases hafter with
  | mk _ _ hboth => exact hboth.2

/-- What every call of the device keeps holds after a step. -/
theorem Device.Keeps.step? (hP : Device.Keeps P) {code : Code} {machine following : Machine σ}
    (h : P machine.store.device) (hstep : Machine.step? code machine = some following) :
    P following.store.device := by
  obtain ⟨_, hnext⟩ := Machine.step?_eq_some_iff.mp hstep
  obtain ⟨instruction, _, store, _, hobey, rfl⟩ := Machine.next_eq_ok_iff.mp hnext
  have hafter := hP.obey h machine.index instruction
  rwa [hobey] at hafter

/-- What every call of the device keeps holds where an execution ends. -/
theorem Device.Keeps.ends (hP : Device.Keeps P) {code : Code} {limit : Option Int}
    {machine final : Machine σ} {outcome : Outcome ε} (h : P machine.store.device)
    (hend : Machine.Ends code limit machine outcome final) : P final.store.device := by
  have hbeside : Machine.Alongside (Store.Alike fun device other : σ ↦ device = other ∧ P device)
      machine machine := .mk _ _ (.mk _ _ ⟨rfl, h⟩)
  obtain ⟨_, _, hafter⟩ := hbeside.ends hP.lockstep.store hend
  obtain ⟨_, _, _, _, hboth⟩ := hafter
  exact hboth.2

end Keeps

namespace Console

/-- The console reads from a buffer and collects its output in memory. -/
inductive InMemory : Console → Prop where
  | mk (rest : List UInt8) (delivered : Array UInt8) (events : Array StreamEvent) :
      InMemory ⟨.buffer rest, .buffer, delivered, events⟩

/-- A console in memory stays one. -/
theorem keeps_inMemory : Device.Keeps InMemory := by
  constructor
  · rintro _ ⟨_ | ⟨value, rest⟩, delivered, events⟩ <;> exact .mk _ _ _
  · rintro value _ ⟨rest, delivered, events⟩
    exact .mk _ _ _

/-- A console in memory refuses reads only, and only for want of input. -/
theorem InMemory.endOfInput {console left : Console} (h : console.InMemory) {c : Command}
    {fault : ConsoleFault} (hrefused : c.RefusedBy console fault left) :
    c = .read ∧ fault = .endOfInput := by
  obtain ⟨rest, delivered, events⟩ := h
  cases c with
  | add | move => cases hrefused
  | write =>
      obtain ⟨_, hwrite⟩ := hrefused
      cases hwrite
  | read =>
      cases rest with
      | nil =>
          cases hrefused
          exact ⟨rfl, rfl⟩
      | cons => cases hrefused

end Console

namespace Machine

variable {source : Source} {program : Program} {size : Nat} {size_pos : 0 < size}
  {input : List UInt8} {limit : Option Int} {outcome : Outcome ConsoleFault}
  {final : Machine Console}

/-- An instruction that is fetched from the code of a program stands in the program. -/
theorem getElem?_of_fetch {instruction : Instruction} {index : Int} (hindex : 0 ≤ index)
    (hlt : index < program.size) (hfetch : program.code.fetch index = .ok instruction) :
    program[index.toNat]? = some instruction := by
  have hbound : index < program.code.size := by
    rw [Program.size_code]
    exact hlt
  rw [Code.fetch, resolveIndex_of_lt hindex hbound] at hfetch
  have hnat : index.toNat < program.size := by omega
  simp only [Program.code, Fin.getElem_fin, Array.getElem_map, Except.ok.injEq] at hfetch
  rw [Array.getElem?_eq_getElem hnat, hfetch]

/-- The ways in which closed code can end with its input and output in memory, from a machine with
its program counter in the code and its head on the tape. -/
theorem ends_inMemory_cases {code : Code} {machine : Machine Console} (hclosed : code.Closed)
    (htrack : OnTrack code machine) (hbounds : machine.store.InBounds size)
    (hmemory : machine.store.device.InMemory) (hend : Ends code limit machine outcome final) :
    outcome = .finished ∨
    (∃ bound, limit = some bound ∧ outcome = .limitReached bound) ∨
    outcome = .faulted (.device .endOfInput) ∧ 0 ≤ final.index ∧ final.index < code.size ∧
      code.fetch final.index = .ok (.command .read) := by
  obtain ⟨count, last, hrun, _, hstop⟩ := ends_iff.mp hend
  cases hstop with
  | finished => exact .inl rfl
  | limitReached _ hlimit => exact .inr (.inl ⟨_, hlimit, rfl⟩)
  | faulted hfails =>
      have htrackLast : OnTrack code last :=
        run_induction (fun h hstep ↦ onTrack_of_step? hclosed h hstep) htrack hrun
      have hboundsLast : last.store.InBounds size :=
        run_induction (fun h hstep ↦ inBounds_of_step? h hstep) hbounds hrun
      have hmemoryLast : last.store.device.InMemory :=
        run_induction (P := fun machine ↦ machine.store.device.InMemory)
          (fun h hstep ↦ Console.keeps_inMemory.step? h hstep) hmemory hrun
      obtain ⟨c, refusal, hfetch, rfl, hrefused⟩ := hfails.refused hclosed htrackLast hboundsLast
      obtain ⟨rfl, rfl⟩ := hmemoryLast.endOfInput hrefused
      rw [hfails.index_eq.1]
      exact .inr (.inr ⟨rfl, htrackLast.1, hfails.1, hfetch⟩)

/-- The ways in which a compiled program can end with its input and output in memory. -/
theorem ends_ofInput_cases (hcompile : compile source = .ok program)
    (hend : Ends program.code limit (start (Tape.blank size size_pos) (Console.ofInput input))
      outcome final) :
    outcome = .finished ∨
    (∃ bound, limit = some bound ∧ outcome = .limitReached bound) ∨
    outcome = .faulted (.device .endOfInput) ∧
      ∃ index : Nat, final.index = index ∧ program[index]? = some (.command .read) := by
  have hvisited : Visited program.code
      (start (Tape.blank size size_pos) (Console.ofInput input)) _ := .initial
  have hclosed := closed_of_compile hcompile
  obtain hfinished | hlimit | ⟨hfault, hindex, hlt, hfetch⟩ :=
    ends_inMemory_cases hclosed (hvisited.onTrack hclosed) hvisited.inBounds (.mk _ _ _) hend
  · exact .inl hfinished
  · exact .inr (.inl hlimit)
  · rw [Program.size_code] at hlt
    exact .inr (.inr ⟨hfault, final.index.toNat, (Int.toNat_of_nonneg hindex).symm,
      getElem?_of_fetch hindex hlt hfetch⟩)

/-- Where an execution of any code ends from a blank tape, the head is on the tape. -/
theorem Ends.inBounds {code : Code}
    (hend : Ends code limit (start (Tape.blank size size_pos) (Console.ofInput input)) outcome
      final) : final.store.InBounds size := by
  obtain ⟨_, fuel, hexecute⟩ := hend
  have hvisited : Visited code (start (Tape.blank size size_pos) (Console.ofInput input))
      (execute code limit fuel (start (Tape.blank size size_pos) (Console.ofInput input))).2 :=
    .again limit fuel .initial
  rw [hexecute] at hvisited
  exact hvisited.inBounds

end Machine

/-- A tape can be made where there is room for it. -/
theorem Tape.make_eq_ok {memory size : Nat} (size_pos : 0 < size) (hword : fitsWord size)
    (hroom : size ≤ memory) : make memory size = .ok (blank size size_pos) := by
  have hfault : capacityFault? memory size = none :=
    capacityFault?_eq_none_iff.mpr ⟨hword, by omega⟩
  simp [make, size_pos, hfault]

/-- Evaluating a compiled source is executing its program with the input and output in memory. -/
theorem evaluate_eq {source : Source} {program : Program} {memory size : Nat}
    (hcompile : compile source = .ok program) (size_pos : 0 < size) (hword : fitsWord size)
    (hroom : size ≤ memory) (patience : Nat) (input : List UInt8) (limit : Option Int) :
    let machine := Machine.start (Tape.blank size size_pos) (Console.ofInput input)
    let result := machine.executeWithin patience program.code limit
    (evaluate patience memory source input size limit).1 =
      match result.1.failure? with
      | some failure => .error failure
      | none => .ok result.2.store.device.delivered := by
  have hfresh : Machine.fresh memory size (Console.ofInput input) =
      .ok (Machine.start (Tape.blank size size_pos) (Console.ofInput input)) := by
    rw [Machine.fresh, Tape.make_eq_ok size_pos hword hroom]
    rfl
  simp only [evaluate, hcompile, hfresh]
  generalize Machine.executeWithin patience program.code limit _ = result
  obtain ⟨outcome, final⟩ := result
  cases outcome.failure? <;> rfl

end TapeMachine
