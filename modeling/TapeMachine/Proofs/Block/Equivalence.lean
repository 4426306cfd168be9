import TapeMachine.Proofs.Block.Adequacy
import TapeMachine.Proofs.Block.SpellLength

/-!
# Blocks with the same meaning

Two blocks are equivalent when they have the same evaluations, whatever these cost, on every store
whose head is on the tape. Equivalence is a congruence, and reading keeps it: `cons_equivalent`
says that a command in front of a block means the same whether it is joined with the first
command of the block or not. Moves are joined as pointer words, so that holds only where the
operators of the block are fewer than the words of one sign.
-/

namespace TapeMachine

variable {σ ε : Type} [Device σ ε]

/-! ## Joint commands -/

/-- Changes of a cell one after the other are as good as their sum. -/
theorem add_ofInt_emod (value : UInt8) (first second : Int) :
    value + UInt8.ofInt ((first + second) % cellModulus) =
      value + UInt8.ofInt first + UInt8.ofInt second := by
  have hdivide := Int.mul_ediv_add_emod (first + second) cellModulus
  have hmultiple : UInt8.ofInt (cellModulus * ((first + second) / cellModulus)) = 0 := by
    rw [UInt8.ofInt_mul, show UInt8.ofInt cellModulus = 0 from rfl, UInt8.zero_mul]
  rw [UInt8.add_assoc, ← UInt8.ofInt_add, ← hdivide, UInt8.ofInt_add, hmultiple, UInt8.zero_add,
    hdivide]

/-- Joint moves go as far as both moves, where that is an offset that a pointer word can have. -/
theorem signedOffset_emod {first second : Int} (hfirst : (Command.move first).InRange)
    (hsecond : (Command.move second).InRange)
    (hfits : fitsWord (signedOffset first + signedOffset second)) :
    signedOffset ((first + second) % pointerModulus) =
      signedOffset first + signedOffset second := by
  have hmodulus : pointerModulus = 18446744073709551616 := rfl
  unfold Command.InRange at hfirst hsecond
  unfold fitsWord at hfits
  simp only [signedOffset, hmodulus] at *
  split at hfits <;> split at hfits <;> split <;> omega

/-- The offsets of two moves add up to one that a pointer word can have. -/
def Command.AddsUp : Command → Command → Prop
  | move first, move second => fitsWord (signedOffset first + signedOffset second)
  | _, _ => True

/-- Two commands with few enough operators add up: neither goes more cells than it has operators. -/
theorem Command.addsUp_of_fitsWord {c d : Command}
    (h : fitsWord (c.spell.length + d.spell.length : Nat)) : c.AddsUp d := by
  cases c with
  | add | write | read => trivial
  | move first =>
      cases d with
      | add | write | read => trivial
      | move second =>
          have hfirst := natAbs_signedOffset_le first
          have hsecond := natAbs_signedOffset_le second
          show fitsWord _
          unfold fitsWord at h ⊢
          omega

/-- A joint command does what its two parts do one after the other. -/
theorem Store.perform_join {size : Nat} {store : Store σ} {c d joint : Command}
    (h : store.InBounds size) (hjoin : c.join? d = some joint) (hc : c.InRange) (hd : d.InRange)
    (hsum : c.AddsUp d) :
    ∃ middle, store.perform c = (.ok (), middle) ∧ middle.perform d = store.perform joint := by
  obtain ⟨tape, pointer, device⟩ := store
  have hlow : 0 ≤ pointer := h.pointer_nonneg
  have hhigh : pointer < tape.size := h.tape_size ▸ h.pointer_lt
  unfold Command.join? at hjoin
  split at hjoin
  · rename_i first second
    cases hjoin
    have hcell := resolveIndex_of_lt hlow hhigh
    have hcell' : ∀ cell value, resolveIndex (tape.set cell value).size pointer = _ :=
      fun cell value ↦ resolveIndex_of_lt hlow (by simpa using hhigh)
    let cell : Fin tape.size := ⟨pointer.toNat, by omega⟩
    let middle : Store σ := ⟨tape.set cell (tape.get cell + UInt8.ofInt first), pointer, device⟩
    refine ⟨middle, by simp [perform, hcell, middle, cell], ?_⟩
    simp [perform, hcell, hcell', middle, cell, add_ofInt_emod]
  · rename_i first second
    cases hjoin
    refine ⟨_, rfl, ?_⟩
    simp [perform, signedOffset_emod hc hd hsum, Int.add_assoc]
  · cases hjoin

namespace Block

/-! ## Equivalence -/

/-- Evaluation keeps the head on the tape. -/
theorem Evaluates.inBounds {block : Block} {store left : Store σ} {cost size : Nat}
    {result : Except (Fault ε) Unit} (h : block.Evaluates store cost result left)
    (hbounds : store.InBounds size) : left.InBounds size := by
  induction h with
  | nil => exact hbounds
  | @command c _ _ _ _ _ _ hperform _ ih =>
      have hmiddle := hbounds.perform c
      rw [hperform] at hmiddle
      exact ih hmiddle
  | @commandFault c _ _ _ _ hperform =>
      have hleft := hbounds.perform c
      rwa [hperform] at hleft
  | skip _ _ ih => exact ih hbounds
  | again _ _ _ _ ihBody ihLoop => exact ihLoop (ihBody hbounds)
  | bodyFault _ _ _ ih => exact ih hbounds
  | testFault => exact hbounds

/-- Every evaluation of the first block is one of the second, up to its cost. -/
def Refines (σ : Type) {ε : Type} [Device σ ε] (first second : Block) : Prop :=
  ∀ ⦃size cost : Nat⦄ ⦃store left : Store σ⦄ ⦃result : Except (Fault ε) Unit⦄,
    store.InBounds size → first.Evaluates store cost result left →
    ∃ cost, second.Evaluates store cost result left

/-- Two blocks have the same evaluations, up to their costs. -/
def Equivalent (σ : Type) {ε : Type} [Device σ ε] (first second : Block) : Prop :=
  first.Refines σ second ∧ second.Refines σ first

variable {first second third body body' rest rest' : Block} {c d joint : Command}

/-- Refinement goes on behind a command. -/
theorem Refines.command (h : rest.Refines σ rest') (c : Command) :
    (command c rest).Refines σ (command c rest') := by
  intro size cost store left result hbounds hevaluates
  cases hevaluates with
  | @command _ _ _ middle _ cost _ hperform hrest =>
      have hmiddle := hbounds.perform c
      rw [hperform] at hmiddle
      obtain ⟨cost', hrest'⟩ := h hmiddle hrest
      exact ⟨cost' + 1, .command hperform hrest'⟩
  | commandFault hperform => exact ⟨0, .commandFault hperform⟩

/-- Refinement goes on in the body of a loop and behind the loop. -/
theorem Refines.loop (hbody : body.Refines σ body') (hrest : rest.Refines σ rest') :
    (loop body rest).Refines σ (loop body' rest') := by
  intro size cost store left result hbounds hevaluates
  -- the evaluation of a loop contains others of the same loop, so the block has to stay fixed
  generalize hblock : Block.loop body rest = block at hevaluates
  induction hevaluates with
  | nil | command | commandFault => cases hblock
  | skip hcurrent hevaluates =>
      cases hblock
      obtain ⟨cost', hevaluates'⟩ := hrest hbounds hevaluates
      exact ⟨cost' + 1, .skip hcurrent hevaluates'⟩
  | again hcurrent hvalue hfirst _ _ ihLoop =>
      cases hblock
      obtain ⟨first', hfirst'⟩ := hbody hbounds hfirst
      obtain ⟨second', hsecond'⟩ := ihLoop (hfirst.inBounds hbounds) rfl
      exact ⟨first' + second' + 1, .again hcurrent hvalue hfirst' hsecond'⟩
  | bodyFault hcurrent hvalue hfault _ =>
      cases hblock
      obtain ⟨cost', hfault'⟩ := hbody hbounds hfault
      exact ⟨cost' + 1, .bodyFault hcurrent hvalue hfault'⟩
  | testFault hcurrent =>
      cases hblock
      exact ⟨0, .testFault hcurrent⟩

namespace Equivalent

/-- Every block is equivalent to itself. -/
theorem refl (block : Block) : block.Equivalent σ block :=
  ⟨fun _ _ _ _ _ _ h ↦ ⟨_, h⟩, fun _ _ _ _ _ _ h ↦ ⟨_, h⟩⟩

/-- Equivalence goes both ways. -/
theorem symm (h : first.Equivalent σ second) : second.Equivalent σ first :=
  ⟨h.2, h.1⟩

/-- Equivalent blocks in a row are equivalent. -/
theorem trans (h : first.Equivalent σ second) (h' : second.Equivalent σ third) :
    first.Equivalent σ third := by
  constructor
  · intro size cost store left result hbounds hevaluates
    obtain ⟨_, hsecond⟩ := h.1 hbounds hevaluates
    exact h'.1 hbounds hsecond
  · intro size cost store left result hbounds hevaluates
    obtain ⟨_, hsecond⟩ := h'.2 hbounds hevaluates
    exact h.2 hbounds hsecond

/-- Equivalent blocks behind a command are equivalent. -/
theorem command (h : rest.Equivalent σ rest') (c : Command) :
    (Block.command c rest).Equivalent σ (Block.command c rest') :=
  ⟨h.1.command c, h.2.command c⟩

/-- Loops with equivalent bodies in front of equivalent blocks are equivalent. -/
theorem loop (hbody : body.Equivalent σ body') (hrest : rest.Equivalent σ rest') :
    (Block.loop body rest).Equivalent σ (Block.loop body' rest') :=
  ⟨hbody.1.loop hrest.1, hbody.2.loop hrest.2⟩

end Equivalent

/-- A command can stand in place of one that does the same on another store. -/
theorem Evaluates.of_perform_eq {store other left : Store σ} {cost : Nat}
    {result : Except (Fault ε) Unit} (h : (Block.command c rest).Evaluates store cost result left)
    (hperform : other.perform d = (store.perform c : Except (Fault ε) Unit × Store σ)) :
    (Block.command d rest).Evaluates other cost result left := by
  cases h with
  | command hc hrest => exact .command (hperform.trans hc) hrest
  | commandFault hc => exact .commandFault (hperform.trans hc)

/-- A command in front of one that it joins can be joined with it. -/
theorem equivalent_of_join? (hjoin : c.join? d = some joint) (hc : c.InRange) (hd : d.InRange)
    (hsum : c.AddsUp d) :
    (command joint rest).Equivalent σ (command c (command d rest)) := by
  constructor
  · intro size cost store left result hbounds hevaluates
    obtain ⟨middle, hfirst, hsecond⟩ := Store.perform_join hbounds hjoin hc hd hsum
    exact ⟨_, .command hfirst (hevaluates.of_perform_eq hsecond)⟩
  · intro size cost store left result hbounds hevaluates
    obtain ⟨middle, hfirst, hsecond⟩ := Store.perform_join hbounds hjoin hc hd hsum
    cases hevaluates with
    | command hperform hrest =>
        cases hfirst.symm.trans hperform
        exact ⟨_, hrest.of_perform_eq hsecond.symm⟩
    | commandFault hperform => cases hfirst.symm.trans hperform

/-- A command stands for one that every store performs alike. -/
theorem refines_of_perform_eq (h : ∀ store : Store σ, store.perform c = store.perform d) :
    (command c rest).Refines σ (command d rest) := by
  intro size cost store left result _ hevaluates
  exact ⟨_, hevaluates.of_perform_eq (h store).symm⟩

/-- Commands that every store performs alike stand for each other. -/
theorem equivalent_of_perform_eq (h : ∀ store : Store σ, store.perform c = store.perform d) :
    (command c rest).Equivalent σ (command d rest) :=
  ⟨refines_of_perform_eq h, refines_of_perform_eq fun store ↦ (h store).symm⟩

/-- A command in front of a normal block may be joined with it or not. -/
theorem cons_equivalent (hc : c.InRange) (h : rest.Normal)
    (hlength : fitsWord (c.spell.length + rest.spell.length : Nat)) :
    (cons c rest).Equivalent σ (command c rest) := by
  obtain ⟨d, tail, joint, rfl, hjoin, hcons⟩ | ⟨_, hcons⟩ := cons_cases c rest
  · rw [hcons]
    rw [spell, List.length_append] at hlength
    exact equivalent_of_join? hjoin hc h.1
      (Command.addsUp_of_fitsWord (fitsWord_of_le (by omega) hlength))
  · rw [hcons]
    exact .refl _

/-- Machines that start equivalent blocks end alike. -/
theorem Equivalent.ends_iff {first second : Block} (h : first.Equivalent σ second) {size : Nat}
    {store left : Store σ} {steps : Int} {outcome : Outcome ε} (hbounds : store.InBounds size) :
    (∃ final, Machine.Ends first.assemble.code none ⟨store, 0, steps⟩ outcome final ∧
      final.store = left) ↔
    ∃ final, Machine.Ends second.assemble.code none ⟨store, 0, steps⟩ outcome final ∧
      final.store = left := by
  rw [ends_iff_evaluates, ends_iff_evaluates]
  constructor
  · rintro ⟨cost, result, hevaluates, houtcome⟩
    obtain ⟨cost', hevaluates'⟩ := h.1 hbounds hevaluates
    exact ⟨cost', result, hevaluates', houtcome⟩
  · rintro ⟨cost, result, hevaluates, houtcome⟩
    obtain ⟨cost', hevaluates'⟩ := h.2 hbounds hevaluates
    exact ⟨cost', result, hevaluates', houtcome⟩

end Block

end TapeMachine
