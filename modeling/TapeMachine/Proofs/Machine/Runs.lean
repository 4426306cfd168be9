import TapeMachine.Proofs.Machine.Step

/-!
# Counted runs

`run` takes a number of steps, so the machines `run code 0`, `run code 1`, ... are the trajectory
that a machine follows when nothing limits it. A trajectory is endless, or it ends in a machine
that has finished or that fails.

`execute_spec` says what `execute` does with fuel and a limit: it follows the trajectory, and it
stops where the fuel is used up or where `Stops` gives a reason. `ends_iff` is the same statement
without the fuel.
-/

namespace TapeMachine.Machine

variable {σ ε : Type} [Device σ ε]

/-- The machine after exactly this many instructions, `none` when it finishes or fails before. -/
def run (code : Code) : Nat → Machine σ → Option (Machine σ)
  | 0, machine => some machine
  | count + 1, machine => step? code machine >>= run code count

variable {code : Code} {machine middle following final : Machine σ} {fault : Fault ε}

/-- The first step of a longer run can be taken by itself. -/
theorem run_succ (h : step? code machine = some following) (count : Nat) :
    run code (count + 1) machine = run code count following := by
  simp [run, h]

/-- A longer run takes a first step and goes on from there. -/
theorem exists_step_of_run {count : Nat} (h : run code (count + 1) machine = some final) :
    ∃ following, step? code machine = some following ∧ run code count following = some final := by
  simpa only [run, Option.bind_eq_bind, Option.bind_eq_some_iff] using h

/-- A run splits at every point. -/
theorem run_add (code : Code) (first second : Nat) (machine : Machine σ) :
    run code (first + second) machine = (run code first machine >>= run code second) := by
  induction first generalizing machine with
  | zero => simp [run]
  | succ first ih =>
      rw [Nat.succ_add]
      simp only [run, Option.bind_eq_bind, Option.bind_assoc] at ih ⊢
      exact congrArg _ (funext ih)

/-- A run that goes on where another ends makes one run with it. -/
theorem run_trans {first second : Nat} (hfirst : run code first machine = some middle)
    (hsecond : run code second middle = some final) :
    run code (first + second) machine = some final := by
  rw [run_add, hfirst]
  exact hsecond

/-- A run of so many instructions passes a machine after every smaller number of them. -/
theorem exists_run_of_le {earlier count : Nat} (hle : earlier ≤ count)
    (hrun : run code count machine = some final) :
    ∃ middle, run code earlier machine = some middle := by
  obtain ⟨rest, rfl⟩ := Nat.exists_eq_add_of_le hle
  rw [run_add, Option.bind_eq_bind, Option.bind_eq_some_iff] at hrun
  obtain ⟨middle, hmiddle, _⟩ := hrun
  exact ⟨middle, hmiddle⟩

/-- Every step of a run is counted. -/
theorem steps_of_run {count : Nat} (h : run code count machine = some final) :
    final.steps = machine.steps + count := by
  induction count generalizing machine with
  | zero =>
      cases h
      simp
  | succ count ih =>
      obtain ⟨following, hstep, hrun⟩ := exists_step_of_run h
      have hone := steps_of_step? hstep
      have hothers := ih hrun
      omega

/-- A machine without a successor ends the trajectory: no run from its start is longer. -/
theorem run_le_of_step?_eq_none {first second : Nat}
    (hfirst : run code first machine = some middle)
    (hsecond : run code second machine = some final) (hlast : step? code final = none) :
    first ≤ second := by
  rcases Nat.lt_or_ge second first with hlt | hle
  · obtain ⟨rest, rfl⟩ : ∃ rest, first = second + (rest + 1) := ⟨first - second - 1, by omega⟩
    rw [run_add, hsecond] at hfirst
    simp [run, hlast] at hfirst
  · exact hle

/-- A run to the last machine of a trajectory starts with the first step of it. -/
theorem exists_run_pred {count : Nat} (hstep : step? code machine = some following)
    (hrun : run code count machine = some final) (hlast : step? code final = none) :
    ∃ rest, count = rest + 1 ∧ run code rest following = some final := by
  cases count with
  | zero =>
      cases hrun
      cases hstep.symm.trans hlast
  | succ count =>
      rw [run_succ hstep] at hrun
      exact ⟨count, rfl, hrun⟩

/-- A run to the last machine of a trajectory goes on from every machine that it passes. -/
theorem exists_run_rest {first second : Nat} (hfirst : run code first machine = some middle)
    (hsecond : run code second machine = some final) (hlast : step? code final = none) :
    ∃ rest, second = first + rest ∧ run code rest middle = some final := by
  have hle := run_le_of_step?_eq_none hfirst hsecond hlast
  obtain ⟨rest, rfl⟩ := Nat.exists_eq_add_of_le hle
  rw [run_add, hfirst] at hsecond
  exact ⟨rest, rfl, hsecond⟩

/-- The limit admits this many instructions more. -/
def Affords (limit : Option Int) (machine : Machine σ) (count : Nat) : Prop :=
  ∀ bound, limit = some bound → count ≤ (bound - machine.steps).toNat

/-- Why execution under a limit stops at a machine, and the machine that it leaves: the code is
passed, or the limit is reached before that, or the next instruction fails. -/
inductive Stops (code : Code) (limit : Option Int) :
    Machine σ → Outcome ε → Machine σ → Prop where
  | finished {last : Machine σ} (h : Finished code last) :
      Stops code limit last .finished last
  | limitReached {last : Machine σ} {bound : Int} (h : ¬ Finished code last)
      (hlimit : limit = some bound) (hbound : bound ≤ last.steps) :
      Stops code limit last (.limitReached bound) last
  | faulted {last left : Machine σ} {fault : Fault ε} (h : Fails code last fault left)
      (hlimit : ∀ bound, limit = some bound → last.steps < bound) :
      Stops code limit last (.faulted fault) left

variable {limit : Option Int} {outcome : Outcome ε}

/-- A machine that stops is left with the step count that it has come to. -/
theorem Stops.steps_eq (h : Stops code limit machine outcome final) :
    final.steps = machine.steps := by
  cases h with
  | finished | limitReached => rfl
  | faulted hfails => exact hfails.index_eq.2

/-- Within the limit, execution has to check nothing but the program counter. -/
theorem filter_limit_eq_none (h : ∀ bound, limit = some bound → machine.steps < bound) :
    (limit.filter fun bound ↦ bound ≤ machine.steps) = none := by
  cases limit with
  | none => rfl
  | some bound =>
      have hlt := h bound rfl
      have hle : ¬ bound ≤ machine.steps := by omega
      simp [Option.filter, hle]

/-- Where there is a reason to stop, execution stops with any fuel at all. -/
theorem Stops.execute_eq (h : Stops code limit machine outcome final) (fuel : Nat) :
    machine.execute code limit (fuel + 1) = (outcome, final) := by
  cases h with
  | finished h =>
      unfold Finished at h
      have hindex : ¬ machine.index < code.size := by omega
      simp [execute, hindex]
  | limitReached h hlimit hbound =>
      unfold Finished at h
      have hindex : machine.index < code.size := by omega
      simp [execute, hindex, hlimit, Option.filter, hbound]
  | faulted h hlimit =>
      simp [execute, h.1, h.2, filter_limit_eq_none hlimit]

/-- Within the limit, a step is the first part of an execution. -/
theorem execute_succ_of_step? (h : step? code machine = some following)
    (hlimit : ∀ bound, limit = some bound → machine.steps < bound) (fuel : Nat) :
    machine.execute code limit (fuel + 1) = following.execute code limit fuel := by
  obtain ⟨hindex, hnext⟩ := step?_eq_some_iff.mp h
  simp [execute, hindex, hnext, filter_limit_eq_none hlimit]

/-- At every machine, execution has a reason to stop or goes on within the limit. -/
theorem stops_or_steps (code : Code) (limit : Option Int) (machine : Machine σ) :
    (∃ outcome final, Stops code limit machine outcome final) ∨
      ∃ following, step? code machine = some following ∧
        ∀ bound, limit = some bound → machine.steps < bound := by
  by_cases hfinished : Finished code machine
  · exact .inl ⟨_, _, .finished hfinished⟩
  by_cases hlimit : ∃ bound, limit = some bound ∧ bound ≤ machine.steps
  · obtain ⟨bound, hsome, hbound⟩ := hlimit
    exact .inl ⟨_, _, .limitReached hfinished hsome hbound⟩
  have hallowed : ∀ bound, limit = some bound → machine.steps < bound := by
    intro bound hsome
    have hbound : ¬ bound ≤ machine.steps := fun hle ↦ hlimit ⟨bound, hsome, hle⟩
    omega
  obtain h | ⟨fault, final, h⟩ | ⟨following, h⟩ := finished_or_fails_or_steps code machine
  · exact absurd h hfinished
  · exact .inl ⟨_, _, .faulted h hallowed⟩
  · exact .inr ⟨following, h, hallowed⟩

/-- Where the limit affords an instruction, it has not been reached. -/
theorem Affords.steps_lt {count : Nat} (h : Affords limit machine (count + 1)) :
    ∀ bound, limit = some bound → machine.steps < bound := by
  intro bound hsome
  have hle := h bound hsome
  omega

/-- A step within the limit uses up one instruction of it. -/
theorem affords_succ {count : Nat} (hstep : step? code machine = some following)
    (hlimit : ∀ bound, limit = some bound → machine.steps < bound) :
    Affords limit machine (count + 1) ↔ Affords limit following count := by
  have hcount := steps_of_step? hstep
  constructor
  · intro h bound hsome
    have hle := h bound hsome
    omega
  · intro h bound hsome
    have hlt := hlimit bound hsome
    have hle := h bound hsome
    omega

/-- What execution comes to with a given fuel: it follows the trajectory within the limit, for as
long as there is fuel, or up to a machine where it stops. -/
theorem execute_spec (code : Code) (limit : Option Int) (fuel : Nat) (machine : Machine σ) :
    ∃ count middle, run code count machine = some middle ∧ Affords limit machine count ∧
      (count = fuel ∧ machine.execute code limit fuel = (.unfinished, middle) ∨
        ∃ outcome final, Stops code limit middle outcome final ∧
          machine.execute code limit fuel = (outcome, final)) := by
  induction fuel generalizing machine with
  | zero => exact ⟨0, machine, rfl, fun _ _ ↦ Nat.zero_le _, .inl ⟨rfl, rfl⟩⟩
  | succ fuel ih =>
      obtain ⟨outcome, final, hstop⟩ | ⟨following, hstep, hlimit⟩ :=
        stops_or_steps code limit machine
      · exact ⟨0, machine, rfl, fun _ _ ↦ Nat.zero_le _,
          .inr ⟨outcome, final, hstop, hstop.execute_eq fuel⟩⟩
      · obtain ⟨count, middle, hrun, hafford, hend⟩ := ih following
        refine ⟨count + 1, middle, ?_, (affords_succ hstep hlimit).mpr hafford, ?_⟩
        · rw [run_succ hstep, hrun]
        · rw [execute_succ_of_step? hstep hlimit]
          obtain ⟨rfl, hend⟩ | hend := hend
          · exact .inl ⟨rfl, hend⟩
          · exact .inr hend

/-- A run within the limit is the first part of an execution. -/
theorem execute_add_of_run {count : Nat} (hrun : run code count machine = some middle)
    (hafford : Affords limit machine count) (fuel : Nat) :
    machine.execute code limit (count + fuel) = middle.execute code limit fuel := by
  induction count generalizing machine with
  | zero =>
      cases hrun
      rw [Nat.zero_add]
  | succ count ih =>
      obtain ⟨following, hstep, hrun⟩ := exists_step_of_run hrun
      have hlimit := hafford.steps_lt
      rw [show count + 1 + fuel = count + fuel + 1 by omega,
        execute_succ_of_step? hstep hlimit]
      exact ih hrun ((affords_succ hstep hlimit).mp hafford)

/-- Execution under the limit comes to an end, with this outcome and this machine. -/
def Ends (code : Code) (limit : Option Int) (machine : Machine σ) (outcome : Outcome ε)
    (final : Machine σ) : Prop :=
  outcome ≠ .unfinished ∧ ∃ fuel, machine.execute code limit fuel = (outcome, final)

/-- Execution goes on forever exactly when it does not come to an end. -/
theorem forall_unfinished_iff :
    (∀ fuel, (machine.execute code limit fuel).1 = .unfinished) ↔
      ¬ ∃ outcome final, Ends code limit machine outcome final := by
  constructor
  · rintro hforever ⟨outcome, final, hended, fuel, hexecute⟩
    have hunfinished := hforever fuel
    rw [hexecute] at hunfinished
    exact hended hunfinished
  · intro hnever fuel
    by_cases hunfinished : (machine.execute code limit fuel).1 = .unfinished
    · exact hunfinished
    · exact absurd ⟨_, _, hunfinished, fuel, rfl⟩ hnever

/-- Of two machines that end alike, the one goes on forever exactly when the other does. -/
theorem forall_unfinished_congr {code' : Code} {machine' : Machine σ}
    (h : ∀ outcome store,
      (∃ final, Ends code limit machine outcome final ∧ final.store = store) ↔
        ∃ final, Ends code' limit machine' outcome final ∧ final.store = store) :
    (∀ fuel, (machine.execute code limit fuel).1 = .unfinished) ↔
      ∀ fuel, (machine'.execute code' limit fuel).1 = .unfinished := by
  rw [forall_unfinished_iff, forall_unfinished_iff, not_congr]
  constructor
  · intro hended
    obtain ⟨outcome, final, hend⟩ := hended
    obtain ⟨final', hend', -⟩ := (h outcome final.store).mp ⟨final, hend, rfl⟩
    exact ⟨outcome, final', hend'⟩
  · intro hended
    obtain ⟨outcome, final, hend⟩ := hended
    obtain ⟨final', hend', -⟩ := (h outcome final.store).mpr ⟨final, hend, rfl⟩
    exact ⟨outcome, final', hend'⟩

/-- A reason to stop is never that execution is unfinished. -/
theorem Stops.ne_unfinished (h : Stops code limit machine outcome final) :
    outcome ≠ .unfinished := by
  cases h <;> simp

/-- Execution ends exactly where the trajectory comes, within the limit, to a machine at which
there is a reason to stop. -/
theorem ends_iff :
    Ends code limit machine outcome final ↔
      ∃ count middle, run code count machine = some middle ∧ Affords limit machine count ∧
        Stops code limit middle outcome final := by
  constructor
  · rintro ⟨hended, fuel, hexecute⟩
    obtain ⟨count, middle, hrun, hafford, ⟨_, hend⟩ | ⟨_, _, hstop, hend⟩⟩ :=
      execute_spec code limit fuel machine
    · cases hexecute.symm.trans hend
      exact absurd rfl hended
    · cases hexecute.symm.trans hend
      exact ⟨count, middle, hrun, hafford, hstop⟩
  · rintro ⟨count, middle, hrun, hafford, hstop⟩
    refine ⟨hstop.ne_unfinished, count + 1, ?_⟩
    rw [execute_add_of_run hrun hafford, hstop.execute_eq]

/-- With fuel enough an execution comes to its end, whatever fuel there is besides. -/
theorem Ends.execute_eq (h : Ends code limit machine outcome final) :
    ∃ least, ∀ fuel, machine.execute code limit (least + fuel) = (outcome, final) := by
  obtain ⟨count, middle, hrun, hafford, hstop⟩ := ends_iff.mp h
  refine ⟨count + 1, fun fuel ↦ ?_⟩
  rw [Nat.add_right_comm, Nat.add_assoc, execute_add_of_run hrun hafford, hstop.execute_eq]

/-- An execution that affords a run ends as the execution from the end of the run. -/
theorem Ends.rest {count : Nat} (h : Ends code limit machine outcome final)
    (hrun : run code count machine = some middle) (hafford : Affords limit machine count) :
    Ends code limit middle outcome final := by
  obtain ⟨least, heq⟩ := h.execute_eq
  refine ⟨h.1, least, ?_⟩
  rw [← execute_add_of_run hrun hafford, Nat.add_comm]
  exact heq count

/-- Execution ends in one way only. -/
theorem Ends.unique {outcome' : Outcome ε} {final' : Machine σ}
    (h : Ends code limit machine outcome final) (h' : Ends code limit machine outcome' final') :
    outcome = outcome' ∧ final = final' := by
  obtain ⟨least, heq⟩ := h.execute_eq
  obtain ⟨least', heq'⟩ := h'.execute_eq
  have hsame := heq least'
  rw [Nat.add_comm, heq'] at hsame
  exact ⟨(Prod.mk.inj hsame).1.symm, (Prod.mk.inj hsame).2.symm⟩

end TapeMachine.Machine
