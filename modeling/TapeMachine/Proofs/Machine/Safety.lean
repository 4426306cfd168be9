import TapeMachine.Console
import TapeMachine.Proofs.Block.Layout
import TapeMachine.Proofs.Machine.Runs
import TapeMachine.Proofs.Source.Acceptance
import TapeMachine.Proofs.Store

/-!
# Safety of executions

`Visited` collects the machines that stand between two instructions while `execute` is called any
number of times, whatever limits the calls have and however they end. The main theorem,
`visited_safe`, says that a machine started on a blank tape always has its head on the tape, and
that a compiled program also keeps its program counter within the code. Its executions then fail
only where the device refuses a call.
-/

namespace TapeMachine

variable {σ ε : Type}

/-! ## The program counter stays in the code -/

/-- Code of instructions only, whose loop instructions name indices of the code. -/
structure Code.Closed (code : Code) : Prop where
  instructions : ∀ word ∈ code, ∃ instruction, word = .instruction instruction
  loopStart : ∀ close : Int, .instruction (.loopStart close) ∈ code → 0 ≤ close ∧ close < code.size
  loopEnd : ∀ start : Int, .instruction (.loopEnd start) ∈ code → 0 ≤ start ∧ start < code.size

/-- Within closed code there is always an instruction to fetch. -/
theorem Code.Closed.fetch_eq {code : Code} (h : code.Closed) {index : Int} (hindex : 0 ≤ index)
    (hlt : index < code.size) :
    ∃ instruction, code.fetch index = .ok instruction ∧ .instruction instruction ∈ code := by
  have hbound : index.toNat < code.size := by omega
  obtain ⟨instruction, hword⟩ := h.instructions _ (Array.getElem_mem hbound)
  refine ⟨instruction, ?_, hword ▸ Array.getElem_mem hbound⟩
  rw [fetch, resolveIndex_of_lt hindex hlt]
  simp [hword]

/-- Assembled code is closed. -/
theorem Block.closed_assemble (block : Block) : block.assemble.code.Closed := by
  have hmem : ∀ instruction, .instruction instruction ∈ block.assemble.code →
      instruction ∈ block.layout 0 := by
    intro instruction h
    rw [← toList_assemble]
    simpa [Program.code] using h
  have hsize : (block.assemble.code.size : Int) = (0 + block.size : Nat) := by
    rw [Program.size_code, size_assemble, Nat.zero_add]
  obtain ⟨hstart, hend⟩ := block.layout_targets 0
  refine ⟨fun word h ↦ ?_, fun close h ↦ ?_, fun start h ↦ ?_⟩
  · obtain ⟨instruction, _, rfl⟩ := Array.mem_map.mp h
    exact ⟨instruction, rfl⟩
  · rw [hsize]
    exact hstart close (hmem _ h)
  · rw [hsize]
    exact hend start (hmem _ h)

/-- Compiled code is closed. -/
theorem closed_of_compile {source : Source} {program : Program}
    (h : compile source = .ok program) : program.code.Closed := by
  obtain ⟨_, rfl⟩ := compile_eq_ok_iff.mp h
  exact Block.closed_assemble _

variable [Device σ ε]

namespace Machine

/-- The program counter addresses a word of the code or the end just past it. -/
def OnTrack (code : Code) (machine : Machine σ) : Prop :=
  0 ≤ machine.index ∧ machine.index ≤ code.size

variable {code : Code} {limit : Option Int} {machine following final : Machine σ}
  {fault : Fault ε} {size : Nat}

/-- The target of an instruction is its own index or the partner that a loop instruction names. -/
theorem target_cases {index target : Int} {instruction : Instruction} {store left : Store σ}
    (h : store.obey index instruction = (.ok target, left)) :
    target = index ∨ instruction = .loopStart target ∨ instruction = .loopEnd target := by
  cases instruction with
  | command c =>
      rcases hperform : store.perform c with ⟨_ | _, after⟩
      · simp [Store.obey, hperform] at h
      · simp only [Store.obey, hperform, Prod.mk.injEq, Except.ok.injEq] at h
        exact .inl h.1.symm
  | loopStart close =>
      rcases hcurrent : (store.current : Except (Fault ε) UInt8) with _ | value
      · simp [Store.obey, hcurrent] at h
      · simp only [Store.obey, hcurrent, Prod.mk.injEq, Except.ok.injEq] at h
        obtain ⟨rfl, _⟩ := h
        split <;> simp
  | loopEnd start =>
      rcases hcurrent : (store.current : Except (Fault ε) UInt8) with _ | value
      · simp [Store.obey, hcurrent] at h
      · simp only [Store.obey, hcurrent, Prod.mk.injEq, Except.ok.injEq] at h
        obtain ⟨rfl, _⟩ := h
        split <;> simp

/-- A step keeps the head on the tape. -/
theorem inBounds_of_step? (h : machine.store.InBounds size)
    (hstep : step? code machine = some following) : following.store.InBounds size := by
  obtain ⟨_, hnext⟩ := step?_eq_some_iff.mp hstep
  obtain ⟨instruction, target, store, _, hobey, rfl⟩ := next_eq_ok_iff.mp hnext
  have hafter := h.obey machine.index instruction
  rwa [hobey] at hafter

/-- A step makes at most one call to the device, and this one succeeds. -/
theorem yields_of_step? (hstep : step? code machine = some following) :
    Device.Yields machine.store.device following.store.device := by
  obtain ⟨_, hnext⟩ := step?_eq_some_iff.mp hstep
  obtain ⟨instruction, target, store, _, hobey, rfl⟩ := next_eq_ok_iff.mp hnext
  exact Store.yields_of_obey hobey

/-- An instruction that fails keeps the head on the tape. -/
theorem Fails.inBounds (h : machine.store.InBounds size)
    (hfails : Fails code machine fault final) : final.store.InBounds size := by
  obtain ⟨_, _, _, rfl⟩ | ⟨instruction, store, _, hobey, rfl⟩ := next_eq_error_iff.mp hfails.2
  · exact h
  · have hafter := h.obey machine.index instruction
    rwa [hobey] at hafter

/-- In closed code a step leads to a word of the code or just past it. -/
theorem onTrack_of_step? (hclosed : code.Closed) (h : OnTrack code machine)
    (hstep : step? code machine = some following) : OnTrack code following := by
  obtain ⟨hlt, hnext⟩ := step?_eq_some_iff.mp hstep
  obtain ⟨instruction, target, store, hfetch, hobey, rfl⟩ := next_eq_ok_iff.mp hnext
  obtain ⟨_, hfetched, hmem⟩ := hclosed.fetch_eq h.1 hlt
  cases hfetch.symm.trans hfetched
  have hbounds : 0 ≤ target ∧ target < code.size := by
    obtain rfl | rfl | rfl := target_cases hobey
    · exact ⟨h.1, hlt⟩
    · exact hclosed.loopStart target hmem
    · exact hclosed.loopEnd target hmem
  unfold OnTrack
  constructor <;> dsimp only <;> omega

/-- In closed code, and with its head on the tape, a machine fails only at a command whose call
the device refuses. -/
theorem Fails.refused (hclosed : code.Closed) (hindex : OnTrack code machine)
    (h : machine.store.InBounds size) (hfails : Fails code machine fault final) :
    ∃ c refusal, code.fetch machine.index = .ok (.command c) ∧ fault = .device refusal ∧
      c.RefusedBy machine.store.device refusal final.store.device := by
  obtain ⟨_, hfetched, _⟩ := hclosed.fetch_eq hindex.1 hfails.1
  obtain ⟨_, hfetch, _⟩ | ⟨instruction, store, hfetch, hobey, rfl⟩ := next_eq_error_iff.mp hfails.2
  · cases hfetch.symm.trans hfetched
  · obtain ⟨c, refusal, rfl, rfl, hrefused⟩ := h.refused_of_obey hobey
    exact ⟨c, refusal, hfetch, rfl, hrefused⟩

/-- In closed code, and with its head on the tape, a machine fails only where the device
refuses a call. -/
theorem Fails.refuses (hclosed : code.Closed) (hindex : OnTrack code machine)
    (h : machine.store.InBounds size) (hfails : Fails code machine fault final) :
    ∃ refusal, fault = .device refusal ∧
      Device.Refuses machine.store.device refusal final.store.device := by
  obtain ⟨_, refusal, _, rfl, hrefused⟩ := hfails.refused hclosed hindex h
  exact ⟨refusal, rfl, hrefused.refuses⟩

/-! ## Whole histories -/

/-- A machine that stands between two instructions, or after one that failed, while `execute` is
called again and again from a machine on. The fuel of a call says how far it has come. -/
inductive Visited (code : Code) (start : Machine σ) : Machine σ → Prop where
  | initial : Visited code start start
  | again {machine : Machine σ} (limit : Option Int) (fuel : Nat)
      (h : Visited code start machine) :
      Visited code start (machine.execute code limit fuel).2

/-- What every step of a run keeps holds after the run. -/
theorem run_induction {P : Machine σ → Prop} {count : Nat}
    (hstep : ∀ {machine following : Machine σ}, P machine →
      step? code machine = some following → P following)
    (h : P machine) (hrun : run code count machine = some final) : P final := by
  induction count generalizing machine with
  | zero =>
      cases hrun
      exact h
  | succ count ih =>
      obtain ⟨following, hnext, hrun⟩ := exists_step_of_run hrun
      exact ih (hstep h hnext) hrun

/-- What steps and failing instructions keep holds of every machine that is visited. -/
theorem Visited.induction {P : Machine σ → Prop} {start : Machine σ}
    (hstep : ∀ {machine following : Machine σ}, P machine →
      step? code machine = some following → P following)
    (hfails : ∀ {machine final : Machine σ} {fault : Fault ε}, P machine →
      Fails code machine fault final → P final)
    (hstart : P start) (h : Visited code start machine) : P machine := by
  induction h with
  | initial => exact hstart
  | @again machine limit fuel _ ih =>
      obtain ⟨count, middle, hrun, _, ⟨_, hexecute⟩ | ⟨_, _, hstop, hexecute⟩⟩ :=
        execute_spec code limit fuel machine
      · rw [hexecute]
        exact run_induction hstep ih hrun
      · rw [hexecute]
        have hmiddle := run_induction hstep ih hrun
        cases hstop with
        | finished | limitReached => exact hmiddle
        | faulted h =>
            -- the next call starts from what the instruction that failed has left
            exact hfails hmiddle h

/-- A run from a machine that is visited leads to a machine that is visited. -/
theorem Visited.of_run {start : Machine σ} {count : Nat} (h : Visited code start machine)
    (hrun : run code count machine = some final) : Visited code start final := by
  have hexecute : machine.execute code none (count + 0) = (.unfinished, final) :=
    execute_add_of_run hrun (by simp [Affords]) 0
  have hvisited := h.again none (count + 0)
  rwa [hexecute] at hvisited

/-- Started on a blank tape, any code keeps the head on the tape. -/
theorem Visited.inBounds {size : Nat} {size_pos : 0 < size} {device : σ}
    (h : Visited code (start (Tape.blank size size_pos) device) machine) :
    machine.store.InBounds size := by
  refine h.induction (fun hbounds hstep ↦ inBounds_of_step? hbounds hstep)
    (fun hbounds hfails ↦ hfails.inBounds hbounds) ?_
  exact ⟨Tape.size_blank size size_pos, Int.le_refl 0, Int.natCast_pos.mpr size_pos⟩

/-- Started at its first instruction, closed code keeps the program counter within itself. -/
theorem Visited.onTrack (hclosed : code.Closed) {tape : Tape} {device : σ}
    (h : Visited code (start tape device) machine) : OnTrack code machine := by
  refine h.induction (fun htrack hstep ↦ onTrack_of_step? hclosed htrack hstep) ?_ ?_
  · intro machine final fault htrack hfails
    unfold OnTrack
    rw [hfails.index_eq.1]
    exact htrack
  · exact ⟨Int.le_refl 0, Int.natCast_nonneg _⟩

/-- A compiled program that was started on a blank tape fails only at a command whose call the
device refuses. -/
theorem Visited.refused {source : Source} {program : Program} {size_pos : 0 < size} {device : σ}
    (hcompile : compile source = .ok program)
    (h : Visited program.code (start (Tape.blank size size_pos) device) machine)
    (hfails : Fails program.code machine fault final) :
    ∃ c refusal, program.code.fetch machine.index = .ok (.command c) ∧ fault = .device refusal ∧
      c.RefusedBy machine.store.device refusal final.store.device := by
  have hclosed := closed_of_compile hcompile
  exact hfails.refused hclosed (h.onTrack hclosed) h.inBounds

/-- A machine that stops stands at the end of closed code exactly when it has finished. -/
theorem Stops.index_eq_iff {outcome : Outcome ε} (h : Stops code limit machine outcome final)
    (htrack : OnTrack code machine) : final.index = code.size ↔ outcome = .finished := by
  have hle := htrack.2
  cases h with
  | finished h =>
      unfold Finished at h
      exact iff_of_true (by omega) rfl
  | limitReached h =>
      unfold Finished at h
      exact iff_of_false (by omega) (by simp)
  | faulted h =>
      have hlt := h.1
      have hindex := h.index_eq.1
      exact iff_of_false (by omega) (by simp)

/-- Executions of a machine that was started on a blank tape are safe.

Whatever the code, at every moment of any number of executions the tape has the size that it was
made with, its cells hold bytes, and the head is on the tape. Where the code was compiled, the
program counter is within the code too; an execution leaves it at the end of the code exactly
when it finishes, and otherwise the execution has reached its limit or the device has refused a
call that the machine made on its way. -/
theorem visited_safe (size : Nat) (size_pos : 0 < size) (device : σ) :
    (∀ code machine, Visited code (start (Tape.blank size size_pos) device) machine →
      machine.store.tape.size = size ∧
      (∀ cell, (machine.store.tape.get cell).toNat < 256) ∧
      0 ≤ machine.store.pointer ∧ machine.store.pointer < size) ∧
    ∀ source program, compile source = .ok program →
      ∀ machine, Visited program.code (start (Tape.blank size size_pos) device) machine →
        0 ≤ machine.index ∧ machine.index ≤ program.size ∧
        ∀ limit outcome final, Ends program.code limit machine outcome final →
          (final.index = program.size ↔ outcome = .finished) ∧
          (outcome = .finished ∨
            (∃ bound, limit = some bound ∧ outcome = .limitReached bound) ∨
            ∃ refusal count last, outcome = .faulted (.device refusal) ∧
              run program.code count machine = some last ∧
              Device.Refuses last.store.device refusal final.store.device) := by
  constructor
  · intro code machine h
    have hbounds := h.inBounds
    exact ⟨hbounds.tape_size, fun cell ↦ UInt8.toNat_lt _, hbounds.pointer_nonneg,
      hbounds.pointer_lt⟩
  · intro source program hcompile machine h
    have hclosed := closed_of_compile hcompile
    have htrack := h.onTrack hclosed
    rw [← Program.size_code]
    refine ⟨htrack.1, htrack.2, fun limit outcome final hend ↦ ?_⟩
    obtain ⟨count, last, hrun, _, hstop⟩ := ends_iff.mp hend
    have hlastTrack : OnTrack program.code last :=
      run_induction (fun htrack hstep ↦ onTrack_of_step? hclosed htrack hstep) htrack hrun
    have hlastBounds : last.store.InBounds size :=
      run_induction (fun hbounds hstep ↦ inBounds_of_step? hbounds hstep) h.inBounds hrun
    refine ⟨hstop.index_eq_iff hlastTrack, ?_⟩
    cases hstop with
    | finished => exact .inl rfl
    | limitReached _ hlimit => exact .inr (.inl ⟨_, hlimit, rfl⟩)
    | faulted hfails =>
        obtain ⟨refusal, rfl, hrefuses⟩ := hfails.refuses hclosed hlastTrack hlastBounds
        exact .inr (.inr ⟨refusal, count, last, rfl, hrun, hrefuses⟩)

/-- An endless loop on a single cell that is cut short has not come to the end of its code. -/
theorem visited_safe_endless :
    ∃ program final, compile [0x2B, 0x5B, 0x5D] = .ok program ∧
      Ends program.code (some 2) (start (Tape.blank 1 (by decide)) (Console.ofInput []))
        (.limitReached 2) final ∧ final.index ≠ program.size := by
  let program : Program := #[.command (.add 1), .loopStart 2, .loopEnd 1]
  let code : Code :=
    #[.instruction (.command (.add 1)), .instruction (.loopStart 2), .instruction (.loopEnd 1)]
  let machine := start (Tape.blank 1 (by decide)) (Console.ofInput [])
  have hcode : program.code = code := by simp [program, code, Program.code]
  have hend : Ends program.code (some 2) machine (.limitReached 2)
      (machine.execute code (some 2) 3).2 := by
    rw [hcode]
    exact ⟨by decide, 3, rfl⟩
  refine ⟨program, _, rfl, hend, fun hindex ↦ ?_⟩
  have hsafe := (visited_safe 1 (by decide) (Console.ofInput [])).2 [0x2B, 0x5B, 0x5D] program rfl
    machine .initial
  cases (hsafe.2.2 _ _ _ hend).1.mp hindex

end Machine

end TapeMachine
