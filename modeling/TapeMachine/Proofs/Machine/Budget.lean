import TapeMachine.Console
import TapeMachine.Proofs.Machine.Runs

/-!
# Step budgets

An execution under a limit follows the trajectory of its machine for as many instructions as the
limit leaves, and no further. The main theorem, `execute_within_budget`, says for each way in
which the trajectory can go on where the execution ends, and that an execution cut short by
limits any number of times ends like a single execution under the largest of them.
-/

namespace TapeMachine.Machine

variable {σ ε : Type} [Device σ ε]

/-- The trajectory of a machine finishes after this many instructions, with this machine. -/
def FinishesAfter (code : Code) (machine : Machine σ) (count : Nat) (final : Machine σ) : Prop :=
  run code count machine = some final ∧ Finished code final

/-- The trajectory of a machine fails after this many instructions: the next one fails and
leaves this machine. -/
def FailsAfter (code : Code) (machine : Machine σ) (count : Nat) (fault : Fault ε)
    (final : Machine σ) : Prop :=
  ∃ middle, run code count machine = some middle ∧ Fails code middle fault final

variable {code : Code} {limit : Option Int} {machine middle final : Machine σ} {fault : Fault ε}

/-- An execution finishes where its trajectory does, if the limit affords to go there. -/
theorem ends_finished_iff :
    Ends code limit machine .finished final ↔
      ∃ count, Affords limit machine count ∧ FinishesAfter code machine count final := by
  rw [ends_iff]
  constructor
  · rintro ⟨count, middle, hrun, hafford, hstop⟩
    cases hstop with
    | finished h => exact ⟨count, hafford, hrun, h⟩
  · rintro ⟨count, hafford, hrun, h⟩
    exact ⟨count, final, hrun, hafford, .finished h⟩

/-- An execution fails where its trajectory does, if the limit affords to try the instruction
that fails. -/
theorem ends_faulted_iff :
    Ends code limit machine (.faulted fault) final ↔
      ∃ count, Affords limit machine (count + 1) ∧ FailsAfter code machine count fault final := by
  rw [ends_iff]
  constructor
  · rintro ⟨count, middle, hrun, hafford, hstop⟩
    cases hstop with
    | faulted h hlimit =>
        refine ⟨count, ?_, middle, hrun, h⟩
        intro bound hsome
        have hlt := hlimit bound hsome
        have hcount := steps_of_run hrun
        omega
  · rintro ⟨count, hafford, middle, hrun, h⟩
    have hcount := steps_of_run hrun
    refine ⟨count, middle, hrun, ?_, .faulted h ?_⟩
    · intro bound hsome
      have hle := hafford bound hsome
      omega
    · intro bound hsome
      have hle := hafford bound hsome
      omega

/-- An execution reaches its limit where the instructions are used up and the code has not been
passed. -/
theorem ends_limitReached_iff {bound : Int} :
    Ends code limit machine (.limitReached bound) final ↔
      limit = some bound ∧ run code (bound - machine.steps).toNat machine = some final ∧
        ¬ Finished code final := by
  rw [ends_iff]
  constructor
  · rintro ⟨count, middle, hrun, hafford, hstop⟩
    cases hstop with
    | limitReached h hlimit hbound =>
        have hle := hafford bound hlimit
        have hcount := steps_of_run hrun
        have hall : count = (bound - machine.steps).toNat := by omega
        exact ⟨hlimit, hall ▸ hrun, h⟩
  · rintro ⟨rfl, hrun, h⟩
    have hcount := steps_of_run hrun
    refine ⟨_, final, hrun, ?_, .limitReached h rfl (by omega)⟩
    intro other hsome
    cases hsome
    exact Nat.le_refl _

/-- Under a limit an execution comes to its end with fuel for what the limit leaves. -/
theorem ends_execute (code : Code) (bound : Int) (machine : Machine σ) :
    let result := machine.execute code (some bound) ((bound - machine.steps).toNat + 1)
    Ends code (some bound) machine result.1 result.2 := by
  obtain ⟨count, middle, hrun, hafford, ⟨rfl, _⟩ | ⟨outcome, final, hstop, hexecute⟩⟩ :=
    execute_spec code (some bound) ((bound - machine.steps).toNat + 1) machine
  · have hle := hafford bound rfl
    omega
  · rw [hexecute]
    exact ⟨hstop.ne_unfinished, _, hexecute⟩

/-- Under a limit every execution comes to an end. -/
theorem exists_ends (code : Code) (bound : Int) (machine : Machine σ) :
    ∃ outcome final, Ends code (some bound) machine outcome final :=
  ⟨_, _, ends_execute code bound machine⟩

/-! ## Executions cut short -/

/-- The larger of two limits, where no limit at all is the largest. -/
def largerLimit : Option Int → Option Int → Option Int
  | some first, some second => some (if first ≤ second then second else first)
  | _, _ => none

/-- One execution after the other, under each of the limits in turn, where every one of them
reaches its limit. -/
inductive Interrupted (code : Code) : List (Option Int) → Machine σ → Machine σ → Prop where
  | nil (machine : Machine σ) : Interrupted code [] machine machine
  | cons {limit : Option Int} {limits : List (Option Int)} {machine middle final : Machine σ}
      {bound : Int} (hfirst : Ends code limit machine (.limitReached bound) middle)
      (hothers : Interrupted code limits middle final) :
      Interrupted code (limit :: limits) machine final

/-- Two executions finish in the same machines, fail in the same way with the same machines, and
reach their limits, each its own, in the same machines. -/
structure EndsAlike (code : Code) (limit : Option Int) (machine : Machine σ)
    (limit' : Option Int) (machine' : Machine σ) : Prop where
  finished (final : Machine σ) :
    Ends code limit machine .finished final ↔ Ends code limit' machine' .finished final
  faulted (fault : Fault ε) (final : Machine σ) :
    Ends code limit machine (.faulted fault) final ↔
      Ends code limit' machine' (.faulted fault) final
  limitReached (final : Machine σ) :
    (∃ bound, Ends code limit machine (.limitReached bound) final) ↔
      ∃ bound, Ends code limit' machine' (.limitReached bound) final

theorem EndsAlike.refl (code : Code) (limit : Option Int) (machine : Machine σ) :
    EndsAlike code limit machine limit machine :=
  ⟨fun _ ↦ Iff.rfl, fun _ _ ↦ Iff.rfl, fun _ ↦ Iff.rfl⟩

theorem EndsAlike.trans {first second third : Option Int} {machine middle final : Machine σ}
    (hfirst : EndsAlike code first machine second middle)
    (hsecond : EndsAlike code second middle third final) :
    EndsAlike code first machine third final :=
  ⟨fun last ↦ (hfirst.finished last).trans (hsecond.finished last),
    fun fault last ↦ (hfirst.faulted fault last).trans (hsecond.faulted fault last),
    fun last ↦ (hfirst.limitReached last).trans (hsecond.limitReached last)⟩

/-- Behind a run, a later limit affords as much as the larger of both limits affords behind its
start. -/
theorem affords_largerLimit {bound : Int} {last : Option Int} {count : Nat}
    (hrun : run code (bound - machine.steps).toNat machine = some middle) :
    Affords last middle count ↔
      Affords (largerLimit (some bound) last) machine
        ((bound - machine.steps).toNat + count) := by
  have hcount := steps_of_run hrun
  cases last with
  | none => simp [Affords, largerLimit]
  | some other =>
      simp only [Affords, largerLimit, Option.some.injEq, forall_eq']
      split <;> omega

/-- The trajectory behind a run finishes where the whole trajectory does. -/
theorem finishesAfter_add_iff {first second : Nat} (hrun : run code first machine = some middle) :
    FinishesAfter code middle second final ↔
      FinishesAfter code machine (first + second) final := by
  unfold FinishesAfter
  rw [run_add, hrun]
  rfl

/-- The trajectory behind a run fails where the whole trajectory does. -/
theorem failsAfter_add_iff {first second : Nat} (hrun : run code first machine = some middle) :
    FailsAfter code middle second fault final ↔
      FailsAfter code machine (first + second) fault final := by
  unfold FailsAfter
  rw [run_add, hrun]
  rfl

/-- An execution that has reached its limit can be taken up again: under any later limit it ends
like a single execution under the larger of the two. -/
theorem endsAlike_of_limitReached {bound : Int} (last : Option Int)
    (h : Ends code limit machine (.limitReached bound) middle) :
    EndsAlike code last middle (largerLimit limit last) machine := by
  obtain ⟨rfl, hrun, hmiddle⟩ := ends_limitReached_iff.mp h
  have hcount := steps_of_run hrun
  refine ⟨fun final ↦ ?_, fun fault final ↦ ?_, fun final ↦ ?_⟩
  · rw [ends_finished_iff, ends_finished_iff]
    constructor
    · rintro ⟨count, hafford, hfinish⟩
      exact ⟨_, (affords_largerLimit hrun).mp hafford, (finishesAfter_add_iff hrun).mp hfinish⟩
    · rintro ⟨total, hafford, hfinish⟩
      -- a trajectory does not end within a run, so its end lies behind the run
      have hle := run_le_of_step?_eq_none hrun hfinish.1 hfinish.2.step?_eq_none
      obtain ⟨count, rfl⟩ := Nat.exists_eq_add_of_le hle
      exact ⟨count, (affords_largerLimit hrun).mpr hafford,
        (finishesAfter_add_iff hrun).mpr hfinish⟩
  · rw [ends_faulted_iff, ends_faulted_iff]
    constructor
    · rintro ⟨count, hafford, hfail⟩
      have hall : Affords (largerLimit (some bound) last) machine
          ((bound - machine.steps).toNat + (count + 1)) := (affords_largerLimit hrun).mp hafford
      exact ⟨_, hall, (failsAfter_add_iff hrun).mp hfail⟩
    · rintro ⟨total, hafford, before, hbefore, hfails⟩
      have hle := run_le_of_step?_eq_none hrun hbefore hfails.step?_eq_none
      obtain ⟨count, rfl⟩ := Nat.exists_eq_add_of_le hle
      exact ⟨count, (affords_largerLimit hrun).mpr hafford,
        (failsAfter_add_iff hrun).mpr ⟨before, hbefore, hfails⟩⟩
  · simp only [ends_limitReached_iff]
    cases last with
    | none => simp [largerLimit]
    | some other =>
        have hall : ((if bound ≤ other then other else bound) - machine.steps).toNat =
            (bound - machine.steps).toNat + (other - middle.steps).toNat := by
          split <;> omega
        simp only [largerLimit, Option.some.injEq, exists_eq_left', hall, run_add, hrun]
        rfl

/-- Executions cut short any number of times, and then one under a last limit, end like a single
execution under the largest of all the limits. -/
theorem Interrupted.endsAlike {limits : List (Option Int)} (last : Option Int)
    (h : Interrupted code limits machine middle) :
    EndsAlike code last middle (limits.foldr largerLimit last) machine := by
  induction h with
  | nil machine => exact EndsAlike.refl code last machine
  | cons hfirst _ ih => exact ih.trans (endsAlike_of_limitReached _ hfirst)

/-- An execution under a limit follows the trajectory of its machine for exactly as many
instructions as the limit leaves.

It finishes where the trajectory finishes, if that takes no more instructions than are left. It
fails where the trajectory fails, if the failing instruction is one of those left. Otherwise it
reaches its limit, in the machine that all the instructions left lead to. And executions cut
short by their limits end like a single execution under the largest limit. -/
theorem execute_within_budget (code : Code) (machine : Machine σ) :
    (∀ limit : Int,
      (∀ final, Ends code (some limit) machine .finished final ↔
        ∃ count ≤ (limit - machine.steps).toNat, FinishesAfter code machine count final) ∧
      (∀ fault final, Ends code (some limit) machine (.faulted fault) final ↔
        ∃ count < (limit - machine.steps).toNat, FailsAfter code machine count fault final) ∧
      ((¬ ∃ count ≤ (limit - machine.steps).toNat, ∃ final,
            FinishesAfter code machine count final) ∧
          (¬ ∃ count < (limit - machine.steps).toNat, ∃ fault final,
            FailsAfter code machine count fault final) ↔
        ∃ final, Ends code (some limit) machine (.limitReached limit) final ∧
          run code (limit - machine.steps).toNat machine = some final)) ∧
    ∀ limits last middle, Interrupted code limits machine middle →
      EndsAlike code last middle (limits.foldr largerLimit last) machine := by
  refine ⟨fun limit ↦ ⟨fun final ↦ ?_, fun fault final ↦ ?_, ?_⟩,
    fun limits last middle h ↦ h.endsAlike last⟩
  · simp [ends_finished_iff, Affords]
  · simp only [ends_faulted_iff, Affords, Option.some.injEq, forall_eq']
    rfl
  · constructor
    · rintro ⟨hfinish, hfail⟩
      obtain ⟨outcome, final, hend⟩ := exists_ends code limit machine
      cases outcome with
      | finished =>
          obtain ⟨count, hafford, h⟩ := ends_finished_iff.mp hend
          exact absurd ⟨count, hafford limit rfl, final, h⟩ hfinish
      | faulted fault =>
          obtain ⟨count, hafford, h⟩ := ends_faulted_iff.mp hend
          exact absurd ⟨count, hafford limit rfl, fault, final, h⟩ hfail
      | unfinished => exact absurd rfl hend.1
      | limitReached bound =>
          obtain ⟨hbound, hrun, _⟩ := ends_limitReached_iff.mp hend
          cases hbound
          exact ⟨final, hend, hrun⟩
    · rintro ⟨final, hend, hrun⟩
      obtain ⟨_, _, hlast⟩ := ends_limitReached_iff.mp hend
      constructor
      · rintro ⟨count, hle, other, hother, hfinished⟩
        have hge := run_le_of_step?_eq_none hrun hother hfinished.step?_eq_none
        obtain rfl : count = (limit - machine.steps).toNat := by omega
        cases hrun.symm.trans hother
        exact hlast hfinished
      · rintro ⟨count, hlt, fault, _, before, hbefore, hfails⟩
        have hge := run_le_of_step?_eq_none hrun hbefore hfails.step?_eq_none
        omega

/-- An endless loop on a cell that is not zero. -/
def endlessLoop : Code :=
  #[.instruction (.command (.add 1)), .instruction (.loopStart 2), .instruction (.loopEnd 1)]

/-- An endless loop that is cut short after two instructions, and again at its old limit, stands
where a single execution of four instructions leads. -/
theorem execute_within_budget_endless :
    let machine := start (Tape.blank 1 (by decide)) (Console.ofInput [])
    ∃ middle, Interrupted endlessLoop [some 2, some 1] machine middle ∧
      EndsAlike endlessLoop (some 4) middle (some 4) machine := by
  intro machine
  have hfirst : Ends endlessLoop (some 2) machine (.limitReached 2)
      (machine.execute endlessLoop (some 2) 3).2 := ⟨by decide, 3, rfl⟩
  have hsecond : Ends endlessLoop (some 1) (machine.execute endlessLoop (some 2) 3).2
      (.limitReached 1) (machine.execute endlessLoop (some 2) 3).2 := ⟨by decide, 1, rfl⟩
  have hcut := Interrupted.cons hfirst (.cons hsecond (.nil _))
  exact ⟨_, hcut, (execute_within_budget endlessLoop machine).2 _ (some 4) _ hcut⟩

end TapeMachine.Machine
