import TapeMachine.Machine

/-!
# What one instruction does

Inversion laws for `Machine.next`: an instruction that succeeds was fetched and obeyed, and one
that fails could not be fetched or was refused by the store. Later proofs take an instruction
apart through these laws. `Machine.Finished` and `Machine.Fails` are the two ways in which a
machine can be without a successor, and `Machine.step?` is the successor where there is one.
-/

namespace TapeMachine

/-- A program has as many words of code as instructions. -/
@[simp] theorem Program.size_code (program : Program) : program.code.size = program.size := by
  simp [code]

variable {σ ε : Type} [Device σ ε]

namespace Machine

variable {code : Code} {machine following final : Machine σ} {fault : Fault ε}

/-- Without an instruction at the program counter nothing happens. -/
theorem next_of_fetch_error {kind : FetchFault}
    (hfetch : code.fetch machine.index = .error kind) :
    machine.next code = (.error (.fetch kind), machine) := by
  simp [next, hfetch]

/-- An instruction that the store refuses changes the store at most. -/
theorem next_of_obey_error {instruction : Instruction} {store : Store σ}
    (hfetch : code.fetch machine.index = .ok instruction)
    (hobey : machine.store.obey machine.index instruction = (.error fault, store)) :
    machine.next code = (.error fault, ⟨store, machine.index, machine.steps⟩) := by
  simp [next, hfetch, hobey]

/-- An instruction that the store obeys is counted, and execution goes on past its target. -/
theorem next_of_obey_ok {instruction : Instruction} {target : Int} {store : Store σ}
    (hfetch : code.fetch machine.index = .ok instruction)
    (hobey : machine.store.obey machine.index instruction = (.ok target, store)) :
    machine.next code = (.ok (), ⟨store, target + 1, machine.steps + 1⟩) := by
  simp [next, hfetch, hobey]

/-- An instruction succeeds exactly when it is fetched and the store obeys it. -/
theorem next_eq_ok_iff :
    machine.next code = (.ok (), following) ↔
      ∃ instruction target store, code.fetch machine.index = .ok instruction ∧
        machine.store.obey machine.index instruction = (.ok target, store) ∧
        following = ⟨store, target + 1, machine.steps + 1⟩ := by
  cases hfetch : code.fetch machine.index with
  | error kind => simp [next_of_fetch_error hfetch]
  | ok instruction =>
      rcases hobey : machine.store.obey machine.index instruction with ⟨refusal | target, store⟩
      · simp [next_of_obey_error hfetch hobey, hobey]
      · rw [next_of_obey_ok hfetch hobey]
        constructor
        · intro h
          cases h
          exact ⟨_, _, _, rfl, hobey, rfl⟩
        · rintro ⟨_, _, _, hfetched, hobeyed, rfl⟩
          cases hfetched
          cases hobey.symm.trans hobeyed
          rfl

/-- An instruction fails exactly when it cannot be fetched, or when the store refuses it. Only
the store can have changed then. -/
theorem next_eq_error_iff :
    machine.next code = (.error fault, final) ↔
      (∃ kind, code.fetch machine.index = .error kind ∧ fault = .fetch kind ∧ final = machine) ∨
      ∃ instruction store, code.fetch machine.index = .ok instruction ∧
        machine.store.obey machine.index instruction = (.error fault, store) ∧
        final = ⟨store, machine.index, machine.steps⟩ := by
  cases hfetch : code.fetch machine.index with
  | error kind => simp [next_of_fetch_error hfetch, eq_comm]
  | ok instruction =>
      rcases hobey : machine.store.obey machine.index instruction with ⟨refusal | target, store⟩
      · rw [next_of_obey_error hfetch hobey]
        constructor
        · intro h
          cases h
          exact .inr ⟨_, _, rfl, hobey, rfl⟩
        · rintro (⟨_, hfetched, _⟩ | ⟨_, _, hfetched, hobeyed, rfl⟩)
          · cases hfetched
          · cases hfetched
            cases hobey.symm.trans hobeyed
            rfl
      · simp [next_of_obey_ok hfetch hobey, hobey]

/-- The program counter has passed the code. -/
def Finished (code : Code) (machine : Machine σ) : Prop :=
  (code.size : Int) ≤ machine.index

/-- The machine has not finished, and its next instruction fails and leaves it as `final`. -/
def Fails (code : Code) (machine : Machine σ) (fault : Fault ε) (final : Machine σ) : Prop :=
  machine.index < code.size ∧ machine.next code = (.error fault, final)

/-- The machine after its next instruction, `none` when it has finished or fails. -/
def step? (code : Code) (machine : Machine σ) : Option (Machine σ) :=
  if machine.index < code.size then
    match machine.next code with
    | (.ok (), following) => some following
    | (.error _, _) => none
  else
    none

/-- A step is an instruction that succeeds, at a program counter within the code. -/
theorem step?_eq_some_iff :
    step? code machine = some following ↔
      machine.index < code.size ∧ machine.next code = (.ok (), following) := by
  unfold step?
  split
  · rename_i hindex
    rcases hnext : machine.next code with ⟨_ | _, other⟩
    · simp
    · simp [hindex]
  · rename_i hindex
    simp [hindex]

/-- A machine that has finished has no successor. -/
theorem Finished.step?_eq_none (h : Finished code machine) : step? code machine = none := by
  unfold Finished at h
  have hindex : ¬ machine.index < code.size := by omega
  simp [step?, hindex]

/-- A machine that fails has no successor. -/
theorem Fails.step?_eq_none (h : Fails code machine fault final) :
    step? code machine = none := by
  simp [step?, h.1, h.2]

/-- Every machine has finished, or fails, or has a successor. -/
theorem finished_or_fails_or_steps (code : Code) (machine : Machine σ) :
    Finished code machine ∨ (∃ fault final, Fails code machine fault final) ∨
      ∃ following, step? code machine = some following := by
  by_cases hindex : machine.index < code.size
  · rcases hnext : machine.next code with ⟨fault | ⟨⟩, other⟩
    · exact .inr (.inl ⟨fault, other, hindex, hnext⟩)
    · exact .inr (.inr ⟨other, step?_eq_some_iff.mpr ⟨hindex, hnext⟩⟩)
  · exact .inl (by unfold Finished; omega)

/-- A step is counted. -/
theorem steps_of_step? (h : step? code machine = some following) :
    following.steps = machine.steps + 1 := by
  obtain ⟨_, hnext⟩ := step?_eq_some_iff.mp h
  obtain ⟨_, _, _, _, _, rfl⟩ := next_eq_ok_iff.mp hnext
  rfl

/-- An instruction that fails leaves the program counter and the count as they are. -/
theorem Fails.index_eq (h : Fails code machine fault final) :
    final.index = machine.index ∧ final.steps = machine.steps := by
  obtain ⟨_, _, _, rfl⟩ | ⟨_, _, _, _, rfl⟩ := next_eq_error_iff.mp h.2 <;> exact ⟨rfl, rfl⟩

end Machine

end TapeMachine
