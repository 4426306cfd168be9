import Mathlib.Algebra.Ring.Nat
import TapeMachine.Proofs.Block.Adequacy
import TapeMachine.Proofs.Block.Pairing
import TapeMachine.Proofs.Machine.InMemory

/-!
# The cost of a loop

A paired program is the layout of exactly one block, and its machine takes as many steps as the
evaluation of this block costs. The main theorem, `paired_ends_iff_evaluates`, says so for every
way to end, together with what a loop costs: `Rounds` counts the evaluations of its body, and
`evaluates_loop_iff` adds them up.
-/

namespace TapeMachine

namespace Block

variable {σ ε : Type} [Device σ ε]

/-- The body of a loop is evaluated again and again, each time on a cell that is not zero, at these
costs. -/
inductive Rounds (body : Block) : Store σ → List Nat → Store σ → Prop where
  | nil {store : Store σ} : Rounds body store [] store
  | cons {store middle left : Store σ} {value : UInt8} {cost : Nat} {costs : List Nat}
      (hcurrent : (store.current : Except (Fault ε) UInt8) = .ok value) (hvalue : value ≠ 0)
      (hbody : body.Evaluates store cost (.ok ()) middle)
      (hrest : Rounds body middle costs left) : Rounds body store (cost :: costs) left

/-- Rounds that leave a cell that is zero make an evaluation of the loop, with one test more than
there are rounds. -/
theorem Rounds.evaluates {body rest : Block} {store middle left : Store σ} {costs : List Nat}
    {later : Nat} {result : Except (Fault ε) Unit} (h : body.Rounds store costs middle)
    (hcurrent : (middle.current : Except (Fault ε) UInt8) = .ok 0)
    (hrest : rest.Evaluates middle later result left) :
    (loop body rest).Evaluates store (1 + (costs.map (· + 1)).sum + later) result left := by
  induction h with
  | nil =>
      have hskip : (loop body rest).Evaluates _ _ result left := .skip hcurrent hrest
      rwa [Nat.add_comm] at hskip
  | @cons _ _ _ _ cost costs htest hvalue hbody _ ih =>
      have hagain := Evaluates.again htest hvalue hbody (ih hcurrent hrest)
      have hcost : cost + (1 + (costs.map (· + 1)).sum + later) + 1 =
          1 + ((cost :: costs).map (· + 1)).sum + later := by
        rw [List.map_cons, List.sum_cons]
        omega
      rwa [hcost] at hagain

/-- A loop that is evaluated to its end has been evaluated in rounds. -/
theorem exists_rounds {body rest : Block} {store left : Store σ} {cost : Nat}
    (h : (loop body rest).Evaluates store cost (.ok ()) left) :
    ∃ costs middle later, body.Rounds store costs middle ∧
      (middle.current : Except (Fault ε) UInt8) = .ok 0 ∧
      rest.Evaluates middle later (.ok ()) left ∧
      cost = 1 + (costs.map (· + 1)).sum + later := by
  -- the rounds of the loop are evaluations of one block, which has to stay fixed
  generalize hblock : loop body rest = block at h
  generalize hresult : Except.ok () = result at h
  induction h with
  | nil | command | commandFault => cases hblock
  | @skip _ _ store _ later _ hcurrent hrest _ =>
      cases hblock
      cases hresult
      exact ⟨[], store, later, .nil, hcurrent, hrest, Nat.add_comm later 1⟩
  | @again _ _ _ _ _ _ first second _ hcurrent hvalue hbody _ _ ih =>
      cases hblock
      obtain ⟨costs, middle, later, hrounds, hzero, hrest, rfl⟩ := ih rfl hresult
      refine ⟨first :: costs, middle, later, .cons hcurrent hvalue hbody hrounds, hzero, hrest, ?_⟩
      rw [List.map_cons, List.sum_cons]
      omega
  | bodyFault | testFault => cases hresult

/-- A loop is evaluated to its end by some rounds that leave a cell that is zero. It costs a test on
entry and, for each round, the cost of the body and another test. -/
theorem evaluates_loop_iff {body rest : Block} {store left : Store σ} {cost : Nat} :
    (loop body rest).Evaluates store cost (.ok ()) left ↔
      ∃ costs middle later, body.Rounds store costs middle ∧
        (middle.current : Except (Fault ε) UInt8) = .ok 0 ∧
        rest.Evaluates middle later (.ok ()) left ∧
        cost = 1 + (costs.map (· + 1)).sum + later := by
  constructor
  · exact exists_rounds
  · intro h
    obtain ⟨costs, middle, later, hrounds, hcurrent, hrest, rfl⟩ := h
    exact hrounds.evaluates hcurrent hrest

/-- A machine that starts an assembled block in memory, with its head on the tape, can only finish
or run out of input. -/
theorem ends_inMemory (block : Block) {store : Store Console} {size : Nat} {steps : Int}
    {outcome : Outcome ConsoleFault} {final : Machine Console} (hbounds : store.InBounds size)
    (hmemory : store.device.InMemory)
    (hend : Machine.Ends block.assemble.code none ⟨store, 0, steps⟩ outcome final) :
    outcome = .finished ∨ outcome = .faulted (.device .endOfInput) := by
  have htrack : Machine.OnTrack block.assemble.code ⟨store, 0, steps⟩ :=
    ⟨Int.le_refl 0, Int.natCast_nonneg _⟩
  obtain hfinished | ⟨_, hlimit, _⟩ | ⟨hfault, _⟩ :=
    Machine.ends_inMemory_cases block.closed_assemble htrack hbounds hmemory hend
  · exact .inl hfinished
  · cases hlimit
  · exact .inr hfault

end Block

/-- A paired program does what its block says, in as many steps as the evaluation costs.

The program is the layout of exactly one block. On any tape, with the head on any of its cells and
with any input, its machine finishes exactly when the block evaluates to its end, and runs out of
input exactly when the block does, each time with the same tape, head, output and unread input.
The steps taken are the cost of the evaluation. A command costs one step. A loop costs one step for
the test on entry and, for each round, the cost of its body and one more test. -/
theorem paired_ends_iff_evaluates {program : Program} (hpaired : program.Paired) :
    ∃ block : Block, (∀ other : Block, other.assemble = program ↔ other = block) ∧
      (∀ (tape : Tape) (pointer : Fin tape.size) (input : List UInt8) (steps : Int),
        let store : Store Console := ⟨tape, pointer, .ofInput input⟩
        (∀ (cost : Nat) left, (∃ final, Machine.Ends program.code none ⟨store, 0, steps⟩
            .finished final ∧ final.store = left ∧ final.steps = steps + cost) ↔
          block.Evaluates store cost (.ok ()) left) ∧
        (∀ (cost : Nat) left, (∃ final, Machine.Ends program.code none ⟨store, 0, steps⟩
            (.faulted (.device .endOfInput)) final ∧ final.store = left ∧
              final.steps = steps + cost) ↔
          block.Evaluates store cost (.error (.device .endOfInput)) left) ∧
        ∀ outcome final, Machine.Ends program.code none ⟨store, 0, steps⟩ outcome final →
          outcome = .finished ∨ outcome = .faulted (.device .endOfInput)) ∧
      ∀ (body rest : Block) (store left : Store Console) (cost : Nat),
        (Block.loop body rest).Evaluates store cost (.ok ()) left ↔
          ∃ costs middle later, body.Rounds store costs middle ∧
            (middle.current : Except (Fault ConsoleFault) UInt8) = .ok 0 ∧
            rest.Evaluates middle later (.ok ()) left ∧
            cost = 1 + (costs.map (· + 1)).sum + later := by
  obtain ⟨block, rfl⟩ := Block.paired_iff_exists_block.mp hpaired
  refine ⟨block, fun other ↦ ⟨Block.assemble_injective, congrArg Block.assemble⟩, ?_,
    fun _ _ _ _ _ ↦ Block.evaluates_loop_iff⟩
  intro tape pointer input steps store
  have hbounds : store.InBounds tape.size :=
    ⟨rfl, Int.natCast_nonneg _, Int.ofNat_lt.mpr pointer.isLt⟩
  refine ⟨fun cost left ↦ ?_, fun cost left ↦ ?_, fun outcome final hend ↦ ?_⟩
  · exact Block.ends_iff_evaluates_at (.ok ())
  · exact Block.ends_iff_evaluates_at (.error (.device ConsoleFault.endOfInput))
  · exact block.ends_inMemory hbounds (.mk _ _ _) hend

/-- A loop over two commands that are not joined, with deltas outside the range of a cell and of a
pointer word, goes round twice. -/
theorem paired_ends_iff_evaluates_unmerged :
    let program : Program :=
      #[.loopStart 3, .command (.add (-257)), .command (.move (2 * pointerModulus)), .loopEnd 0]
    program.Paired ∧ ∃ final, Machine.Ends program.code none
      (⟨⟨⟨#[2], by decide⟩, 0, .ofInput []⟩, 0, 0⟩ : Machine Console) .finished final ∧
        final.steps = 7 := by
  intro program
  let tree : Block :=
    .loop (.command (.add (-257)) (.command (.move (2 * pointerModulus)) .nil)) .nil
  have htree : tree.assemble = program := rfl
  have hpaired : program.Paired := Block.paired_iff_exists_block.mpr ⟨tree, htree⟩
  obtain ⟨block, hblock, hends, _⟩ := paired_ends_iff_evaluates hpaired
  obtain rfl : tree = block := (hblock tree).mp htree
  have hevaluates : tree.Evaluates (⟨⟨#[2], by decide⟩, 0, .ofInput []⟩ : Store Console) 7 (.ok ())
      ⟨⟨#[0], by decide⟩, 0, .ofInput []⟩ :=
    .again rfl (by decide) (.command rfl (.command rfl .nil))
      (.again rfl (by decide) (.command rfl (.command rfl .nil)) (.skip rfl .nil))
  obtain ⟨final, hend, _, hsteps⟩ :=
    ((hends ⟨#[2], by decide⟩ ⟨0, by decide⟩ [] 0).1 7 _).mpr hevaluates
  exact ⟨hpaired, final, hend, hsteps⟩

end TapeMachine
