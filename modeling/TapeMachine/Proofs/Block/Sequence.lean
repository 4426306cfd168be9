import TapeMachine.Proofs.Block.Equivalence
import TapeMachine.Proofs.Block.Weld

/-!
# Evaluating blocks in turn

A block behind another is evaluated after it, and the costs add up: `evaluates_append_iff`. Where a
block is welded to another the same holds, except that the two commands joined at the seam cost one
step and not two, `Welds.evaluates_iff`.
-/

namespace TapeMachine

/-- The number of steps that are saved at the seam of two programs: one where commands join. -/
def Program.saved (first second : Program) : Nat :=
  if (first.seam? second).isSome then 1 else 0

namespace Block

variable {σ ε : Type} [Device σ ε] {first second whole front body rest tail : Block}
  {c d joint : Command} {store middle left : Store σ} {cost early later saved size : Nat}
  {result : Except (Fault ε) Unit} {fault : Fault ε}

/-- Two blocks are evaluated in turn. Either the first comes to its end and the second goes on from
there, at the cost of both less what is saved at the seam, or the first fails. -/
def InTurn (first second : Block) (saved : Nat) (store : Store σ) (cost : Nat)
    (result : Except (Fault ε) Unit) (left : Store σ) : Prop :=
  (∃ middle early later, first.Evaluates store early (.ok () : Except (Fault ε) Unit) middle ∧
    second.Evaluates middle later result left ∧ cost + saved = early + later) ∨
  ∃ fault, result = .error fault ∧ first.Evaluates store cost result left

/-! ## One block behind the other -/

/-- Two blocks evaluated one after the other make an evaluation of the one behind the other. -/
theorem Evaluates.append (h : first.Evaluates store early (.ok () : Except (Fault ε) Unit) middle)
    (hsecond : second.Evaluates middle later result left) :
    (first.append second).Evaluates store (early + later) result left := by
  generalize hresult : Except.ok () = outcome at h
  induction h with
  | nil =>
      rw [Nat.zero_add]
      exact hsecond
  | command hperform _ ih =>
      rw [Nat.add_right_comm]
      exact .command hperform (ih hsecond hresult)
  | skip hcurrent _ ih =>
      rw [Nat.add_right_comm]
      exact .skip hcurrent (ih hsecond hresult)
  | @again _ _ _ _ _ _ round others _ hcurrent hvalue hbody _ _ ihLoop =>
      have hcost : round + others + 1 + later = round + (others + later) + 1 := by omega
      rw [hcost]
      exact .again hcurrent hvalue hbody (ihLoop hsecond hresult)
  | commandFault | bodyFault | testFault => cases hresult

/-- A fault in the first of two blocks is a fault of the one behind the other. -/
theorem Evaluates.append_fault (h : first.Evaluates store cost (.error fault) left)
    (second : Block) : (first.append second).Evaluates store cost (.error fault) left := by
  generalize hresult : Except.error fault = outcome at h ⊢
  induction h with
  | nil => cases hresult
  | command hperform _ ih => exact .command hperform (ih hresult)
  | commandFault hperform => exact .commandFault hperform
  | skip hcurrent _ ih => exact .skip hcurrent (ih hresult)
  | again hcurrent hvalue hbody _ _ ihLoop =>
      exact .again hcurrent hvalue hbody (ihLoop hresult)
  | bodyFault hcurrent hvalue hbody _ => exact .bodyFault hcurrent hvalue hbody
  | testFault hcurrent => exact .testFault hcurrent

namespace InTurn

/-- Evaluation in turn goes on behind a command. -/
theorem command (hperform : store.perform c = (.ok (), middle))
    (h : rest.InTurn second saved middle cost result left) :
    (Block.command c rest).InTurn second saved store (cost + 1) result left := by
  obtain ⟨_, early, later, hrest, hsecond, hcost⟩ | ⟨fault, hfault, hrest⟩ := h
  · exact .inl ⟨_, early + 1, later, .command hperform hrest, hsecond, by omega⟩
  · exact .inr ⟨fault, hfault, .command hperform hrest⟩

/-- Evaluation in turn goes on behind a loop that is skipped. -/
theorem skip (hcurrent : (store.current : Except (Fault ε) UInt8) = .ok 0)
    (h : rest.InTurn second saved store cost result left) :
    (loop body rest).InTurn second saved store (cost + 1) result left := by
  obtain ⟨_, early, later, hrest, hsecond, hcost⟩ | ⟨fault, hfault, hrest⟩ := h
  · exact .inl ⟨_, early + 1, later, .skip hcurrent hrest, hsecond, by omega⟩
  · exact .inr ⟨fault, hfault, .skip hcurrent hrest⟩

/-- Evaluation in turn goes on behind a round of a loop. -/
theorem again {value : UInt8} {round : Nat}
    (hcurrent : (store.current : Except (Fault ε) UInt8) = .ok value) (hvalue : value ≠ 0)
    (hbody : body.Evaluates store round (.ok () : Except (Fault ε) Unit) middle)
    (h : (loop body rest).InTurn second saved middle cost result left) :
    (loop body rest).InTurn second saved store (round + cost + 1) result left := by
  obtain ⟨_, early, later, hloop, hsecond, hcost⟩ | ⟨fault, hfault, hloop⟩ := h
  · exact .inl ⟨_, round + early + 1, later, .again hcurrent hvalue hbody hloop, hsecond,
      by omega⟩
  · exact .inr ⟨fault, hfault, .again hcurrent hvalue hbody hloop⟩

end InTurn

/-- What evaluates a block behind another has evaluated both in turn. -/
theorem inTurn_of_evaluates (h : (first.append second).Evaluates store cost result left) :
    first.InTurn second 0 store cost result left := by
  induction first generalizing store cost result left with
  | nil => exact .inl ⟨store, 0, cost, .nil, h, (Nat.zero_add cost).symm⟩
  | command c rest ih =>
      cases h with
      | command hperform hrest => exact (ih hrest).command hperform
      | commandFault hperform => exact .inr ⟨_, rfl, .commandFault hperform⟩
  | loop body rest _ ih =>
      -- the rounds are evaluations of one block, which has to stay fixed
      generalize hblock : (loop body rest).append second = block at h
      induction h with
      | nil | command | commandFault => cases hblock
      | skip hcurrent hrest =>
          cases hblock
          exact (ih hrest).skip hcurrent
      | again hcurrent hvalue hbody _ _ ihLoop =>
          cases hblock
          exact (ihLoop rfl).again hcurrent hvalue hbody
      | bodyFault hcurrent hvalue hbody =>
          cases hblock
          exact .inr ⟨_, rfl, .bodyFault hcurrent hvalue hbody⟩
      | testFault hcurrent =>
          cases hblock
          exact .inr ⟨_, rfl, .testFault hcurrent⟩

/-- A block behind another is evaluated after it. -/
theorem evaluates_append_iff :
    (first.append second).Evaluates store cost result left ↔
      first.InTurn second 0 store cost result left := by
  constructor
  · exact inTurn_of_evaluates
  · intro h
    rcases h with ⟨_, _, _, hfirst, hsecond, rfl⟩ | ⟨_, rfl, hfirst⟩
    · exact hfirst.append hsecond
    · exact hfirst.append_fault second

/-! ## Commands joined at the seam -/

/-- A block that ends with a command that always succeeds fails only before it. -/
theorem evaluates_front_of_fault
    (h : (front.append (command c nil)).Evaluates store cost (.error fault) left)
    (hc : ∀ middle early, front.Evaluates store early (.ok () : Except (Fault ε) Unit) middle →
      ∃ after, middle.perform c = ((.ok (), after) : Except (Fault ε) Unit × Store σ)) :
    front.Evaluates store cost (.error fault) left := by
  obtain ⟨middle, early, later, hfront, hlast, _⟩ | ⟨_, _, hfront⟩ := evaluates_append_iff.mp h
  · obtain ⟨after, hafter⟩ := hc middle early hfront
    cases hlast with
    | command _ hnil => cases hnil
    | commandFault hperform => cases hafter.symm.trans hperform
  · exact hfront

/-- A joint command at the seam does in one step what its two parts do in two. -/
theorem evaluates_joined_iff (hbounds : store.InBounds size) (hjoin : c.join? d = some joint)
    (hc : c.InRange) (hd : d.InRange) (hsum : c.AddsUp d) :
    (front.append (command joint tail)).Evaluates store cost result left ↔
      (front.append (command c nil)).InTurn (command d tail) 1 store cost result left := by
  have hparts : ∀ middle early,
      front.Evaluates store early (.ok () : Except (Fault ε) Unit) middle →
      ∃ after, middle.perform c = ((.ok (), after) : Except (Fault ε) Unit × Store σ) ∧
        after.perform d = (middle.perform joint : Except (Fault ε) Unit × Store σ) :=
    fun middle early hfront ↦ Store.perform_join (hfront.inBounds hbounds) hjoin hc hd hsum
  rw [evaluates_append_iff]
  constructor
  · intro hwhole
    rcases hwhole with ⟨middle, early, later, hfront, hjoint, hcost⟩ | ⟨fault, rfl, hfront⟩
    · obtain ⟨after, hfirst, hsecond⟩ := hparts middle early hfront
      exact .inl ⟨after, early + 1, later, hfront.append (.command hfirst .nil),
        hjoint.of_perform_eq hsecond, by omega⟩
    · exact .inr ⟨fault, rfl, hfront.append_fault _⟩
  · intro hinTurn
    rcases hinTurn with ⟨after, early, later, hends, hsecond, hcost⟩ | ⟨fault, rfl, hends⟩
    · obtain ⟨middle, before, last, hfront, hlast, rfl⟩ | ⟨_, hfault, _⟩ :=
        evaluates_append_iff.mp hends
      · obtain ⟨_, hfirst, hboth⟩ := hparts middle before hfront
        cases hlast with
        | command hperform hnil =>
            cases hnil
            cases hfirst.symm.trans hperform
            exact .inl ⟨middle, before, later, hfront, hsecond.of_perform_eq hboth.symm, by omega⟩
      · cases hfault
    · refine .inr ⟨fault, rfl, evaluates_front_of_fault hends fun middle early hfront ↦ ?_⟩
      obtain ⟨after, hfirst, _⟩ := hparts middle early hfront
      exact ⟨after, hfirst⟩

/-- The blocks side by side are spelled by their spellings side by side. -/
theorem spell_append (first second : Block) :
    (first.append second).spell = first.spell ++ second.spell := by
  induction first with
  | nil => rfl
  | command c rest ih => rw [append, spell, spell, ih, List.append_assoc]
  | loop body rest _ ih => simp [append, spell, ih]

/-- A command within a normal block is in range. -/
theorem inRange_of_normal_append (h : (front.append (command c rest)).Normal) : c.InRange := by
  induction front with
  | nil => exact h.1
  | command _ _ ih => exact ih h.2.2
  | loop _ _ _ ih => exact ih h.2

/-- A step is saved where commands join. -/
theorem saved_joined (front tail : Block) (hjoin : c.join? d = some joint) :
    (front.append (command c nil)).assemble.saved (command d tail).assemble = 1 := by
  rw [Program.saved, seam?_assemble_eq_some front tail hjoin]
  rfl

/-- No step is saved where nothing joins. -/
theorem saved_apart
    (h : ∀ (front : Block) c, first = front.append (command c nil) → ¬ second.StartsLike c) :
    first.assemble.saved second.assemble = 0 := by
  rw [Program.saved, seam?_assemble_eq_none h]
  rfl

/-- A block that is welded to another is evaluated after it, where the operators of both are fewer
than the words of one sign. -/
theorem Welds.evaluates_iff (h : Welds first second whole) (hfirst : first.Normal)
    (hsecond : second.Normal)
    (hlength : fitsWord (first.spell.length + second.spell.length : Nat))
    (hbounds : store.InBounds size) :
    whole.Evaluates store cost result left ↔
      first.InTurn second (first.assemble.saved second.assemble) store cost result left := by
  cases h with
  | @joined front tail c d joint hjoin =>
      have hsum : c.AddsUp d := by
        simp only [spell_append, spell, List.length_append] at hlength
        exact Command.addsUp_of_fitsWord (fitsWord_of_le (by omega) hlength)
      rw [saved_joined front tail hjoin]
      exact evaluates_joined_iff hbounds hjoin (inRange_of_normal_append hfirst) hsecond.1 hsum
  | apart hapart =>
      rw [saved_apart hapart]
      exact evaluates_append_iff

/-- What is saved at a seam is part of the cost of the first block: commands join only where this
block ends with one. -/
theorem Welds.saved_le (h : Welds first second whole)
    (hfirst : first.Evaluates store early (.ok () : Except (Fault ε) Unit) middle) :
    first.assemble.saved second.assemble ≤ early := by
  cases h with
  | joined front tail hjoin =>
      rw [saved_joined front tail hjoin]
      obtain ⟨_, before, last, _, hlast, hcost⟩ | ⟨_, hfault, _⟩ := evaluates_append_iff.mp hfirst
      · cases hlast
        omega
      · cases hfault
  | apart hapart =>
      rw [saved_apart hapart]
      exact Nat.zero_le early

end Block

end TapeMachine
