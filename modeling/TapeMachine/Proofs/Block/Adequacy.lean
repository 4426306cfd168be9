import TapeMachine.Proofs.Block.Evaluation

/-!
# Machines evaluate blocks

An assembled block does on the machine what `Block.Evaluates` says, and nothing else:
`ends_iff_evaluates`. In one direction, `leads_of_evaluates`, the evaluation tells every step of
the machine. In the other, `exists_evaluates`, a machine that comes to an end has evaluated the
block on its way.
-/

namespace TapeMachine

variable {σ ε : Type} [Device σ ε]

/-- How execution ends for a result: with success at the end of the code, with a fault at the
instruction that failed. -/
def Outcome.ofResult : Except (Fault ε) Unit → Outcome ε
  | .ok () => .finished
  | .error fault => .faulted fault

namespace Machine

variable {code : Code} {machine middle following : Machine σ} {cost exit : Nat}
  {result : Except (Fault ε) Unit} {left : Store σ}

/-- With this many instructions, the machine comes to an exit with a store, or to an instruction
that fails and leaves the store. -/
def Leads (code : Code) (machine : Machine σ) (cost exit : Nat) :
    Except (Fault ε) Unit → Store σ → Prop
  | .ok (), left => run code cost machine = some ⟨left, exit, machine.steps + cost⟩
  | .error fault, left => ∃ last final, run code cost machine = some last ∧
      Fails code last fault final ∧ final.store = left

/-- Where a machine leads after a run, it leads from the start of the run. -/
theorem Leads.of_run {count : Nat} (hrun : run code count machine = some middle)
    (h : Leads code middle cost exit result left) :
    Leads code machine (count + cost) exit result left := by
  have hsteps := steps_of_run hrun
  cases result with
  | ok =>
      have htarget : machine.steps + (count + cost : Nat) = middle.steps + cost := by omega
      show run code (count + cost) machine = _
      rw [htarget]
      exact run_trans hrun h
  | error fault =>
      obtain ⟨last, final, hlast, hfails, hstore⟩ := h
      exact ⟨last, final, run_trans hrun hlast, hfails, hstore⟩

/-- Where a machine leads after one step, it leads before it. -/
theorem Leads.of_step? (hstep : step? code machine = some following)
    (h : Leads code following cost exit result left) :
    Leads code machine (cost + 1) exit result left := by
  rw [Nat.add_comm]
  exact h.of_run (by rw [run_succ hstep]; rfl)

/-- The machine follows the evaluation of a block that its code holds, at the cost of the
evaluation, and comes to the instruction behind the block. -/
theorem leads_of_evaluates {block : Block} {store : Store σ}
    (h : block.Evaluates store cost result left) {base index : Nat}
    (hcode : code.Holds base (block.layout base)) (hentry : block.Entry base index)
    (steps : Int) :
    Leads code ⟨store, index, steps⟩ cost (base + block.size) result left := by
  induction h generalizing base index steps with
  | nil =>
      obtain rfl := hentry.eq_base (by simp)
      show run code 0 _ = _
      simp [run, Block.size]
  | @command c rest store middle left cost result hperform _ ih =>
      obtain rfl := hentry.eq_base (by simp)
      have hrest := ih hcode.tail (.inl rfl) (steps + 1)
      rw [Nat.add_assoc, Nat.add_comm 1] at hrest
      exact hrest.of_step? (step?_command hcode hperform)
  | commandFault hperform =>
      obtain rfl := hentry.eq_base (by simp)
      exact ⟨_, _, rfl, fails_command hcode hperform, rfl⟩
  | @skip body rest store left cost result hcurrent _ ih =>
      have hrest := ih (Block.holds_rest hcode) (.inl rfl) (steps + 1)
      have hexit : base + body.size + 2 + rest.size = base + (Block.loop body rest).size := by
        simp only [Block.size]
        omega
      rw [hexit] at hrest
      exact hrest.of_step? (step?_loop hcode hentry hcurrent)
  | @again body rest store middle left value first second result hcurrent hvalue _ _ ihBody
      ihLoop =>
      have hstep : step? code ⟨store, index, steps⟩ = some ⟨store, ↑(base + 1), steps + 1⟩ := by
        rw [step?_loop hcode hentry hcurrent, if_neg hvalue]
      have hbody := ihBody (Block.holds_body hcode) (.inl rfl) (steps + 1)
      -- behind the body stands the end of the loop, where the loop is entered again
      have hloop := ihLoop hcode (.inr ⟨body, rest, rfl, rfl⟩) (steps + 1 + first)
      rw [Nat.add_right_comm] at hloop
      exact (hloop.of_run hbody).of_step? hstep
  | @bodyFault body rest store left value cost fault hcurrent hvalue _ ih =>
      have hstep : step? code ⟨store, index, steps⟩ = some ⟨store, ↑(base + 1), steps + 1⟩ := by
        rw [step?_loop hcode hentry hcurrent, if_neg hvalue]
      obtain ⟨last, final, hrun, hfails, hstore⟩ :=
        ih (Block.holds_body hcode) (.inl rfl) (steps + 1)
      exact ⟨last, final, by rw [run_succ hstep, hrun], hfails, hstore⟩
  | testFault hcurrent => exact ⟨_, _, rfl, fails_loop hcode hentry hcurrent, rfl⟩

/-- A machine that comes to an end evaluates every block that it enters on its way. -/
theorem exists_evaluates {count : Nat} {block : Block} {base index : Nat} {store : Store σ}
    {steps : Int} {last : Machine σ} (hcode : code.Holds base (block.layout base))
    (hentry : block.Entry base index) (hrun : run code count ⟨store, index, steps⟩ = some last)
    (hlast : step? code last = none) :
    ∃ cost result left, block.Evaluates store cost result left := by
  -- a loop that is entered again is no smaller block, but what is left of the run is shorter
  induction count using Nat.strongRecOn generalizing block base index store steps with
  | ind count ih =>
      cases block with
      | nil => exact ⟨_, _, _, .nil⟩
      | command c rest =>
          obtain rfl := hentry.eq_base (by simp)
          rcases hperform : store.perform c with ⟨fault | ⟨⟩, middle⟩
          · exact ⟨_, _, _, .commandFault hperform⟩
          · obtain ⟨count, rfl, hrunRest⟩ :=
              exists_run_pred (step?_command hcode hperform) hrun hlast
            obtain ⟨cost, result, left, hrest⟩ :=
              ih count (Nat.lt_succ_self _) hcode.tail (.inl rfl) hrunRest
            exact ⟨_, _, _, .command hperform hrest⟩
      | loop body rest =>
          rcases hcurrent : (store.current : Except (Fault ε) UInt8) with fault | value
          · exact ⟨_, _, _, .testFault hcurrent⟩
          obtain ⟨count, rfl, hrunRest⟩ :=
            exists_run_pred (step?_loop hcode hentry hcurrent) hrun hlast
          by_cases hvalue : value = 0
          · rw [if_pos hvalue] at hrunRest
            rw [hvalue] at hcurrent
            obtain ⟨cost, result, left, hrest⟩ :=
              ih count (Nat.lt_succ_self _) (Block.holds_rest hcode) (.inl rfl) hrunRest
            exact ⟨_, _, _, .skip hcurrent hrest⟩
          · rw [if_neg hvalue] at hrunRest
            obtain ⟨first, result, middle, hbody⟩ :=
              ih count (Nat.lt_succ_self _) (Block.holds_body hcode) (.inl rfl) hrunRest
            cases result with
            | error fault => exact ⟨_, _, _, .bodyFault hcurrent hvalue hbody⟩
            | ok =>
                -- what is left of the run starts where the loop is entered again
                have hleads := leads_of_evaluates hbody (Block.holds_body hcode) (.inl rfl)
                  (steps + 1)
                obtain ⟨others, rfl, hrunOthers⟩ := exists_run_rest hleads hrunRest hlast
                rw [Nat.add_right_comm] at hrunOthers
                obtain ⟨second, result, left, hloop⟩ :=
                  ih others (by omega) hcode (.inr ⟨body, rest, rfl, rfl⟩) hrunOthers
                exact ⟨_, _, _, .again hcurrent hvalue hbody hloop⟩

/-- Where a machine leads to the end of its code, or to a fault, its execution ends, after as many
steps as that takes. -/
theorem Leads.ends (h : Leads code machine cost code.size result left) :
    ∃ final, Ends code none machine (Outcome.ofResult result) final ∧ final.store = left ∧
      final.steps = machine.steps + cost := by
  cases result with
  | ok =>
      have hfinished : Finished code ⟨left, (code.size : Int), machine.steps + cost⟩ :=
        Int.le_refl _
      exact ⟨_, ends_iff.mpr ⟨cost, _, h, nofun, .finished hfinished⟩, rfl, rfl⟩
  | error fault =>
      obtain ⟨last, final, hrun, hfails, hstore⟩ := h
      refine ⟨final, ends_iff.mpr ⟨cost, last, hrun, nofun, .faulted hfails nofun⟩, hstore, ?_⟩
      rw [hfails.index_eq.2, steps_of_run hrun]

/-- An execution that ends comes to a last machine. -/
theorem Stops.step?_eq_none {outcome : Outcome ε} {final : Machine σ}
    (h : Stops code none machine outcome final) : step? code machine = none := by
  cases h with
  | finished h => exact h.step?_eq_none
  | limitReached _ hlimit => cases hlimit
  | faulted h => exact h.step?_eq_none

end Machine

/-- The machine that starts an assembled block ends as the block evaluates, at the same cost. -/
theorem Block.Evaluates.ends {block : Block} {store left : Store σ} {cost : Nat}
    {result : Except (Fault ε) Unit} (h : block.Evaluates store cost result left) (steps : Int) :
    ∃ final, Machine.Ends block.assemble.code none ⟨store, 0, steps⟩ (Outcome.ofResult result)
      final ∧ final.store = left ∧ final.steps = steps + cost := by
  have hsize : block.assemble.code.size = 0 + block.size := by
    rw [Program.size_code, size_assemble, Nat.zero_add]
  have hleads := Machine.leads_of_evaluates h block.holds_assemble (.inl rfl) steps
  rw [← hsize] at hleads
  exact hleads.ends

/-- A machine that starts an assembled block and comes to an end has evaluated the block. -/
theorem Block.exists_evaluates_of_ends {block : Block} {store : Store σ} {steps : Int}
    {outcome : Outcome ε} {final : Machine σ}
    (h : Machine.Ends block.assemble.code none ⟨store, 0, steps⟩ outcome final) :
    ∃ cost result, block.Evaluates store cost result final.store ∧
      outcome = Outcome.ofResult result ∧ final.steps = steps + cost := by
  obtain ⟨count, last, hrun, _, hstop⟩ := Machine.ends_iff.mp h
  obtain ⟨cost, result, left, hevaluates⟩ :=
    Machine.exists_evaluates block.holds_assemble (.inl rfl) hrun hstop.step?_eq_none
  obtain ⟨final', hend', rfl, hsteps⟩ := hevaluates.ends steps
  obtain ⟨rfl, rfl⟩ := h.unique hend'
  exact ⟨cost, result, hevaluates, rfl, hsteps⟩

/-- A machine that starts an assembled block comes to an end exactly when the block has an
evaluation, with its result and its store. -/
theorem Block.ends_iff_evaluates {block : Block} {store left : Store σ} {outcome : Outcome ε}
    {steps : Int} :
    (∃ final, Machine.Ends block.assemble.code none ⟨store, 0, steps⟩ outcome final ∧
      final.store = left) ↔
    ∃ cost result, block.Evaluates store cost result left ∧ outcome = Outcome.ofResult result := by
  constructor
  · rintro ⟨final, hend, rfl⟩
    obtain ⟨cost, result, hevaluates, houtcome, _⟩ := exists_evaluates_of_ends hend
    exact ⟨cost, result, hevaluates, houtcome⟩
  · rintro ⟨cost, result, hevaluates, rfl⟩
    obtain ⟨final, hend, hstore, _⟩ := hevaluates.ends steps
    exact ⟨final, hend, hstore⟩

/-- Results that end an execution alike are the same. -/
theorem Outcome.ofResult_inj {result result' : Except (Fault ε) Unit}
    (h : ofResult result = ofResult result') : result = result' := by
  cases result <;> cases result' <;> cases h <;> rfl

/-- A machine that starts an assembled block ends with a result after some number of steps exactly
when the block has an evaluation with this result at this cost. -/
theorem Block.ends_iff_evaluates_at {block : Block} {store left : Store σ} {cost : Nat}
    {steps : Int} (result : Except (Fault ε) Unit) :
    (∃ final, Machine.Ends block.assemble.code none ⟨store, 0, steps⟩ (Outcome.ofResult result)
      final ∧ final.store = left ∧ final.steps = steps + cost) ↔
    block.Evaluates store cost result left := by
  constructor
  · rintro ⟨final, hend, rfl, hsteps⟩
    obtain ⟨cost', result', hevaluates, houtcome, hsteps'⟩ := exists_evaluates_of_ends hend
    obtain rfl := Outcome.ofResult_inj houtcome
    obtain rfl : cost = cost' := by omega
    exact hevaluates
  · intro h
    exact h.ends steps

end TapeMachine
