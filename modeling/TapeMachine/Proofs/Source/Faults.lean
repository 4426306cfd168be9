import Mathlib.Order.Bounds.Basic
import TapeMachine.Proofs.Source.Acceptance
import TapeMachine.Proofs.Source.Depth

/-!
# Positions of bracket faults

Which bracket a refused source is refused for. The main theorem, `compile_by_depth`, says it by
counting: the first closing bracket at depth zero or, where there is none, the last opening bracket
that the depth never comes back to. Both are brackets without a partner, the first and the last of
their kind.

`Verdict` is the invariant of the scan put into words: what each of its three answers says about
the shape of the source.
-/

namespace TapeMachine

namespace Source

/-- A closing bracket stands at the position, and no bracket is left that it could close. -/
def ClosesNothing (source : Source) (position : Nat) : Prop :=
  source[position]? = some Operator.closing.byte ∧ source.depth position = 0

/-- An opening bracket stands at the position, and the depth stays above the depth there. -/
def StaysOpen (source : Source) (position : Nat) : Prop :=
  source[position]? = some Operator.opening.byte ∧
    ∀ later, position < later → later ≤ source.length →
      source.depth position < source.depth later

/-- The bracket at the position closes and has no partner in front of it. -/
def Unopened (source : Source) (position : Nat) : Prop :=
  source[position]? = some Operator.closing.byte ∧ ∀ first, ¬ Partners role source first position

/-- The bracket at the position opens and has no partner behind it. -/
def Unclosed (source : Source) (position : Nat) : Prop :=
  source[position]? = some Operator.opening.byte ∧ ∀ second, ¬ Partners role source position second

/-- What the scan finds out about a source. -/
inductive Verdict : Source → Option BracketFault → Prop where
  | accepted {source : Source} (h : Balanced role source) : Verdict source none
  | unopened {body after : Source} {b : UInt8} (hbody : Balanced role body)
      (hb : role b = .closing) : Verdict (body ++ b :: after) (some (.unopened body.length))
  | unclosed {source : Source} {position : Nat} {outer : List Nat}
      (h : Opens (position :: outer) source) : Verdict source (some (.unclosed position))

variable {body front after source rest : Source} {b : UInt8} {opened : List Nat} {position : Nat}

/-- The scan keeps the positions of the brackets that are open so far, so its answer is right. -/
theorem Opens.verdict (h : Opens opened front) (rest : Source) :
    Verdict (front ++ rest) (bracketFaultFrom? front.length opened rest) := by
  induction rest generalizing front opened with
  | nil =>
      rw [List.append_nil]
      cases opened with
      | nil =>
          cases h with
          | balanced hbody => exact .accepted hbody
      | cons position outer => exact .unclosed h
  | cons b rest ih =>
      have hfront : front ++ b :: rest = (front ++ [b]) ++ rest := by simp
      have hlength : front.length + 1 = (front ++ [b]).length := by simp
      simp only [bracketFaultFrom?]
      split
      · rename_i hb
        rw [hfront, hlength]
        exact ih (h.append_opening (role_of_ofByte? hb))
      · rename_i hb
        cases opened with
        | nil =>
            cases h with
            | balanced hbody => exact .unopened hbody (role_of_ofByte? hb)
        | cons position outer =>
            rw [hfront, hlength]
            exact ih (h.append_closing (role_of_ofByte? hb))
      · rename_i hopening hclosing
        have hplain : role b = .plain := by
          cases hrole : role b with
          | plain => rfl
          | opening => exact absurd (ofByte?_of_role_opening hrole) hopening
          | closing => exact absurd (ofByte?_of_role_closing hrole) hclosing
        rw [hfront, hlength]
        exact ih (h.append (.plain hplain .nil))

/-- The answer of the scan is right about the whole source. -/
theorem verdict (source : Source) : Verdict source source.bracketFault? :=
  (Opens.balanced .nil).verdict source

/-! ## The first closing bracket without a partner -/

/-- Behind a closing bracket at depth zero the depth is negative. -/
theorem ClosesNothing.depth_succ_lt (h : source.ClosesNothing position) :
    source.depth (position + 1) < 0 := by
  rw [depth_succ h.1, h.2, role_eq_closing_iff.mpr rfl, Role.weight]
  omega

/-- Behind a balanced part a closing bracket closes nothing, and no bracket in front does so. -/
theorem isLeast_closesNothing (hbody : Balanced role body) (hb : role b = .closing)
    (after : Source) :
    IsLeast {position | (body ++ b :: after).ClosesNothing position} body.length := by
  refine ⟨⟨?_, ?_⟩, fun position h ↦ ?_⟩
  · rw [List.getElem?_append_right (Nat.le_refl _), Nat.sub_self, role_eq_closing_iff.mp hb]
    rfl
  · rw [depth_append, depth_of_length_le (Nat.le_refl _), excess_of_balanced hbody, Nat.sub_self,
      depth_zero]
    rfl
  · by_contra hlt
    have hnegative := h.depth_succ_lt
    have hnonneg := depth_nonneg_of_balanced hbody (position + 1)
    rw [depth_append, show position + 1 - body.length = 0 by omega, depth_zero] at hnegative
    omega

/-- The closing bracket behind a balanced part is the first one without a partner. -/
theorem isLeast_unopened (hbody : Balanced role body) (hb : role b = .closing) :
    IsLeast {position | (body ++ b :: after).Unopened position} body.length := by
  have hleast := isLeast_closesNothing hbody hb after
  refine ⟨⟨hleast.1.1, ?_⟩, fun position h ↦ ?_⟩
  · -- a partner in front would be closed within the balanced part already
    rintro first ⟨before, a, inner, z, tail, heq, ha, hinner, -, -, hlength⟩
    have hsplit : body ++ b :: after = (before ++ a :: inner) ++ z :: tail := by simp [heq]
    obtain ⟨rfl, -⟩ := List.append_inj hsplit (by simp; omega)
    have hnonneg := depth_nonneg_of_balanced hbody before.length
    have hexcess := excess_of_balanced hbody
    rw [depth_append, Nat.sub_self, depth_zero, depth_of_length_le (Nat.le_refl _)] at hnonneg
    rw [excess_append, excess_cons, ha, excess_of_balanced hinner, Role.weight] at hexcess
    omega
  · by_contra hlt
    have hget := h.1
    rw [List.getElem?_append_left (by omega)] at hget
    obtain ⟨first, hpartners⟩ :=
      hbody.exists_partners_closing hget (role_eq_closing_iff.mpr rfl) (b :: after)
    exact h.2 first hpartners

/-! ## The last opening bracket without a partner -/

/-- Nothing in a source with open brackets only is a closing bracket that closes nothing. -/
theorem Opens.not_closesNothing (h : Opens opened source) : ¬ source.ClosesNothing position := by
  intro hcloses
  have hnegative := hcloses.depth_succ_lt
  have hnonneg := h.depth_nonneg (position + 1)
  omega

/-- The innermost open bracket stays open, and no bracket behind it does so. -/
theorem Opens.isGreatest_staysOpen {outer : List Nat} (h : Opens (position :: outer) source) :
    IsGreatest {position | source.StaysOpen position} position := by
  cases h with
  | @bracket _ front body b hfront hb hbody =>
      have hdepth : ∀ past, depth (front ++ b :: body) (front.length + (past + 1)) =
          excess front + 1 + depth body past := by
        intro past
        rw [depth_append, depth_of_length_le (Nat.le_add_right _ _), Nat.add_sub_cancel_left,
          depth_cons_succ, hb, Role.weight]
        omega
      have hstart : depth (front ++ b :: body) front.length = excess front := by
        rw [depth_append, depth_of_length_le (Nat.le_refl _), Nat.sub_self, depth_zero]
        omega
      refine ⟨⟨?_, fun later hlt _ ↦ ?_⟩, fun other hother ↦ ?_⟩
      · rw [List.getElem?_append_right (Nat.le_refl _), Nat.sub_self, role_eq_opening_iff.mp hb]
        rfl
      · obtain ⟨past, rfl⟩ := Nat.exists_eq_add_of_lt hlt
        have hnonneg := depth_nonneg_of_balanced hbody past
        rw [hstart, Nat.add_assoc, hdepth]
        omega
      · by_contra hlt
        -- the depth of the other bracket is at least that of the end of the source
        obtain ⟨past, rfl⟩ := Nat.exists_eq_add_of_lt (Nat.lt_of_not_le hlt)
        obtain ⟨hbound, _⟩ := List.getElem?_eq_some_iff.mp hother.1
        have hends := hother.2 _ hbound (Nat.le_refl _)
        have hnonneg := depth_nonneg_of_balanced hbody past
        have hlength : (front ++ b :: body).length = front.length + (body.length + 1) := by simp
        rw [hlength, hdepth, Nat.add_assoc, hdepth, depth_of_length_le (Nat.le_refl _),
          excess_of_balanced hbody] at hends
        omega

/-- The innermost open bracket is the last opening bracket without a partner. -/
theorem Opens.isGreatest_unclosed {outer : List Nat} (h : Opens (position :: outer) source) :
    IsGreatest {position | source.Unclosed position} position := by
  have hgreatest := h.isGreatest_staysOpen
  cases h with
  | @bracket _ front body b hfront hb hbody =>
      refine ⟨⟨hgreatest.1.1, ?_⟩, fun other hother ↦ ?_⟩
      · -- behind a partner the balanced rest would be below depth zero
        rintro second ⟨before, a, inner, z, tail, heq, -, hinner, hz, hlength, -⟩
        obtain ⟨rfl, htail⟩ := List.append_inj heq hlength
        obtain ⟨-, rfl⟩ := List.cons.inj htail
        have hnonneg := depth_nonneg_of_balanced hbody (inner.length + 1)
        rw [depth_append, depth_of_length_le (Nat.le_succ _), excess_of_balanced hinner,
          Nat.add_sub_cancel_left, depth_cons_succ, hz, depth_zero, Role.weight] at hnonneg
        omega
      · by_contra hlt
        obtain ⟨past, rfl⟩ := Nat.exists_eq_add_of_lt (Nat.lt_of_not_le hlt)
        have hget := hother.1
        rw [Nat.add_assoc, List.getElem?_append_right (Nat.le_add_right _ _),
          Nat.add_sub_cancel_left, List.getElem?_cons_succ] at hget
        obtain ⟨second, hpartners⟩ :=
          hbody.exists_partners_opening hget (role_eq_opening_iff.mpr rfl) (front ++ [b])
        refine hother.2 second ?_
        simpa [Nat.add_assoc, Nat.add_comm 1] using hpartners

/-! ## The answers of the scan -/

/-- Nothing in a balanced source is a closing bracket that closes nothing. -/
theorem not_closesNothing_of_balanced (h : Balanced role source) :
    ¬ source.ClosesNothing position :=
  (Opens.balanced h).not_closesNothing

/-- The scan stops at the first closing bracket at depth zero. -/
theorem bracketFault?_eq_unopened_iff :
    source.bracketFault? = some (.unopened position) ↔
      IsLeast {position | source.ClosesNothing position} position := by
  have hverdict := source.verdict
  constructor
  · intro h
    rw [h] at hverdict
    cases hverdict with
    | unopened hbody hb => exact isLeast_closesNothing hbody hb _
  · intro hleast
    generalize source.bracketFault? = answer at hverdict ⊢
    cases hverdict with
    | accepted h => exact absurd hleast.1 (not_closesNothing_of_balanced h)
    | unopened hbody hb => rw [hleast.unique (isLeast_closesNothing hbody hb _)]
    | unclosed h => exact absurd hleast.1 h.not_closesNothing

/-- The scan names the last opening bracket that stays open where nothing stops it and the depth
is positive at the end. -/
theorem bracketFault?_eq_unclosed_iff :
    source.bracketFault? = some (.unclosed position) ↔
      (∀ first, ¬ source.ClosesNothing first) ∧ 0 < source.depth source.length ∧
        IsGreatest {position | source.StaysOpen position} position := by
  have hverdict := source.verdict
  constructor
  · intro h
    rw [h] at hverdict
    cases hverdict with
    | unclosed h =>
        have hexcess := h.excess_eq
        rw [List.length_cons] at hexcess
        rw [depth_of_length_le (Nat.le_refl _)]
        exact ⟨fun _ ↦ h.not_closesNothing, by omega, h.isGreatest_staysOpen⟩
  · rintro ⟨hnone, hpositive, hgreatest⟩
    rw [depth_of_length_le (Nat.le_refl _)] at hpositive
    generalize source.bracketFault? = answer at hverdict ⊢
    cases hverdict with
    | accepted h => rw [excess_of_balanced h] at hpositive; omega
    | unopened hbody hb => exact absurd (isLeast_closesNothing hbody hb _).1 (hnone _)
    | unclosed h => rw [hgreatest.unique h.isGreatest_staysOpen]

/-- A source is balanced exactly when it is never below depth zero and comes back to it. -/
theorem balanced_iff_depth :
    Balanced role source ↔
      (∀ position ≤ source.length, 0 ≤ source.depth position) ∧
        source.depth source.length = 0 := by
  rw [depth_of_length_le (Nat.le_refl _)]
  constructor
  · intro h
    exact ⟨fun position _ ↦ depth_nonneg_of_balanced h position, excess_of_balanced h⟩
  · rintro ⟨hnonneg, hzero⟩
    have hverdict := source.verdict
    generalize source.bracketFault? = answer at hverdict
    cases hverdict with
    | accepted h => exact h
    | @unopened body after b hbody hb =>
        have hnegative := (isLeast_closesNothing hbody hb after).1.depth_succ_lt
        have hnot := hnonneg (body.length + 1) (by simp)
        omega
    | unclosed h =>
        have hexcess := h.excess_eq
        rw [List.length_cons] at hexcess
        omega

end Source

/-- A source is refused with the fault that the scan finds. -/
theorem compile_eq_error_iff {source : Source} {fault : BracketFault} :
    compile source = .error fault ↔ source.bracketFault? = some fault := by
  rw [compile_eq]
  cases source.bracketFault? <;> simp

/-- A source compiles to some program exactly when it is balanced. -/
theorem exists_compile_iff {source : Source} :
    (∃ program, compile source = .ok program) ↔ Balanced Source.role source := by
  simp [compile_eq_ok_iff]

/-- Which sources compile, and which bracket the others are refused for.

A source is refused for a closing bracket exactly where this is the first one at depth zero. With
no closing bracket at depth zero it is refused for an opening bracket exactly where the depth is
positive at the end and this is the last opening bracket that the depth stays above. And it
compiles exactly where the depth is never negative and comes back to zero, which is to say that its
brackets pair up. The bracket that is named is the first closing bracket without a partner, or else
the last opening bracket without one. -/
theorem compile_by_depth (source : Source) :
    (∀ position, compile source = .error (.unopened position) ↔
      IsLeast {position | source.ClosesNothing position} position) ∧
    (∀ position, compile source = .error (.unclosed position) ↔
      (∀ first, ¬ source.ClosesNothing first) ∧ 0 < source.depth source.length ∧
        IsGreatest {position | source.StaysOpen position} position) ∧
    ((∃ program, compile source = .ok program) ↔
      (∀ position ≤ source.length, 0 ≤ source.depth position) ∧
        source.depth source.length = 0) ∧
    ((∃ program, compile source = .ok program) ↔ Balanced Source.role source) ∧
    (∀ position, compile source = .error (.unopened position) →
      IsLeast {position | source.Unopened position} position) ∧
    ∀ position, compile source = .error (.unclosed position) →
      IsGreatest {position | source.Unclosed position} position := by
  have hverdict := source.verdict
  refine ⟨fun position ↦ ?_, fun position ↦ ?_, ?_, exists_compile_iff, fun position h ↦ ?_,
    fun position h ↦ ?_⟩
  · exact compile_eq_error_iff.trans Source.bracketFault?_eq_unopened_iff
  · exact compile_eq_error_iff.trans Source.bracketFault?_eq_unclosed_iff
  · exact exists_compile_iff.trans Source.balanced_iff_depth
  · rw [compile_eq_error_iff.mp h] at hverdict
    cases hverdict with
    | unopened hbody hb => exact Source.isLeast_unopened hbody hb
  · rw [compile_eq_error_iff.mp h] at hverdict
    cases hverdict with
    | unclosed h => exact h.isGreatest_unclosed

/-- A source with a bracket of either kind that has no partner is refused for the closing one. -/
theorem compile_by_depth_both :
    compile [0x5B, 0x5D, 0x5D, 0x5B] = .error (.unopened 2) ∧
      IsLeast {position | Source.Unopened [0x5B, 0x5D, 0x5D, 0x5B] position} 2 := by
  have hcompile : compile [0x5B, 0x5D, 0x5D, 0x5B] = .error (.unopened 2) := by decide
  exact ⟨hcompile, (compile_by_depth _).2.2.2.2.1 2 hcompile⟩

end TapeMachine
