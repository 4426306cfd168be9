import TapeMachine.Proofs.Block.Reading

/-!
# Bracket depth

The depth of a source at a position is the number of brackets opened in front of it less the
number of brackets closed there. Balanced sources are never below depth zero and come back to it.

`Opens opened source` takes a source apart at the brackets that are still open at its end. Such a
source is never below depth zero either, `Opens.depth_nonneg`, and ends at the depth that its open
brackets make up, `Opens.excess_eq`.
-/

namespace TapeMachine

/-- A byte denotes an operator exactly when it is the byte of that operator. -/
theorem Operator.ofByte?_eq_some_iff {b : UInt8} {op : Operator} :
    ofByte? b = some op ↔ b = op.byte := by
  constructor
  · intro h
    unfold ofByte? at h
    repeat' split at h
    all_goals cases h
    all_goals assumption
  · rintro rfl
    exact ofByte?_byte op

namespace Source

/-- How many more brackets a source opens than it closes. -/
def excess (source : Source) : Int :=
  source.count Operator.opening.byte - source.count Operator.closing.byte

/-- How many more brackets are opened than closed in front of a position of a source. -/
def depth (source : Source) (position : Nat) : Int :=
  excess (source.take position)

variable {body rest source : Source} {b : UInt8} {opened : List Nat}

/-- Exactly the byte of the opening bracket opens. -/
theorem role_eq_opening_iff : role b = .opening ↔ b = Operator.opening.byte := by
  rw [← Operator.ofByte?_eq_some_iff]
  exact ⟨ofByte?_of_role_opening, role_of_ofByte?⟩

/-- Exactly the byte of the closing bracket closes. -/
theorem role_eq_closing_iff : role b = .closing ↔ b = Operator.closing.byte := by
  rw [← Operator.ofByte?_eq_some_iff]
  exact ⟨ofByte?_of_role_closing, role_of_ofByte?⟩

/-! ## Counting -/

@[simp] theorem excess_append (first second : Source) :
    excess (first ++ second) = excess first + excess second := by
  simp only [excess, List.count_append]
  omega

/-- A byte in front of a source counts by its role. -/
theorem excess_cons (b : UInt8) (rest : Source) :
    excess (b :: rest) = (role b).weight + excess rest := by
  have hne : Operator.opening.byte ≠ Operator.closing.byte := by decide
  simp only [excess, List.count_cons, beq_iff_eq]
  cases hrole : role b with
  | opening =>
      rw [role_eq_opening_iff.mp hrole, if_pos rfl, if_neg hne, Role.weight]
      omega
  | closing =>
      rw [role_eq_closing_iff.mp hrole, if_pos rfl, if_neg hne.symm, Role.weight]
      omega
  | plain =>
      have hopening : b ≠ Operator.opening.byte := by
        rintro rfl
        cases hrole
      have hclosing : b ≠ Operator.closing.byte := by
        rintro rfl
        cases hrole
      rw [if_neg hopening, if_neg hclosing, Role.weight]
      omega

/-- The depth at the start of a source is zero. -/
@[simp] theorem depth_zero (source : Source) : depth source 0 = 0 := rfl

/-- The depth at the end of a source, or behind it, is its excess. -/
theorem depth_of_length_le {position : Nat} (h : source.length ≤ position) :
    depth source position = excess source := by
  rw [depth, List.take_of_length_le h]

/-- Behind the first part of a source the depth counts on from the excess of that part. -/
theorem depth_append (first second : Source) (position : Nat) :
    depth (first ++ second) position =
      depth first position + depth second (position - first.length) := by
  rw [depth, List.take_append, excess_append]
  rfl

/-- Behind the first byte the depth counts on from the weight of that byte. -/
theorem depth_cons_succ (b : UInt8) (rest : Source) (position : Nat) :
    depth (b :: rest) (position + 1) = (role b).weight + depth rest position := by
  rw [depth, List.take_succ_cons, excess_cons]
  rfl

/-- The depth counts a byte as soon as it has been passed. -/
theorem depth_succ {position : Nat} (h : source[position]? = some b) :
    depth source (position + 1) = depth source position + (role b).weight := by
  rw [depth, List.take_add_one, h, excess_append, Option.toList_some, excess_cons]
  exact congrArg _ (Int.add_zero _)

/-! ## Balanced sources -/

/-- The excess of a source is what its brackets add up to. -/
theorem excess_eq_surplus (source : Source) : excess source = surplus role source := by
  induction source with
  | nil => rfl
  | cons b rest ih => rw [excess_cons, surplus_cons, ih]

/-- A balanced source closes as many brackets as it opens. -/
theorem excess_of_balanced (h : Balanced role body) : excess body = 0 := by
  rw [excess_eq_surplus, h.surplus_eq]

/-- A balanced source is nowhere below depth zero. -/
theorem depth_nonneg_of_balanced (h : Balanced role body) (position : Nat) :
    0 ≤ depth body position := by
  rw [depth, excess_eq_surplus]
  exact h.surplus_take_nonneg position

/-! ## Sources with open brackets -/

/-- At the end of the source the brackets at these positions are open, the innermost first, and
everything around them is balanced. -/
inductive Opens : List Nat → Source → Prop where
  | balanced {body : Source} (hbody : Balanced role body) : Opens [] body
  | bracket {opened : List Nat} {front body : Source} {b : UInt8} (hfront : Opens opened front)
      (hb : role b = .opening) (hbody : Balanced role body) :
      Opens (front.length :: opened) (front ++ b :: body)

namespace Opens

/-- What is balanced opens nothing more. -/
theorem append (h : Opens opened source) (hbody : Balanced role body) :
    Opens opened (source ++ body) := by
  cases h with
  | balanced hinner => exact .balanced (hinner.append hbody)
  | bracket hfront hb hinner =>
      rw [List.append_assoc, List.cons_append]
      exact .bracket hfront hb (hinner.append hbody)

/-- An opening bracket behind the source is the innermost open one. -/
theorem append_opening (h : Opens opened source) (hb : role b = .opening) :
    Opens (source.length :: opened) (source ++ [b]) :=
  .bracket h hb .nil

/-- A closing bracket behind the source closes the innermost open one. -/
theorem append_closing {position : Nat} (h : Opens (position :: opened) source)
    (hb : role b = .closing) : Opens opened (source ++ [b]) := by
  cases h with
  | bracket hfront ha hbody =>
      have hpair : Balanced role (_ :: (_ ++ b :: [])) := .pair ha hbody hb .nil
      rw [List.append_assoc, List.cons_append]
      exact hfront.append hpair

/-- A source has as much excess as open brackets. -/
theorem excess_eq (h : Opens opened source) : excess source = opened.length := by
  induction h with
  | balanced hbody => exact excess_of_balanced hbody
  | bracket _ hb hbody ih =>
      rw [excess_append, excess_cons, hb, excess_of_balanced hbody, ih, List.length_cons,
        Role.weight]
      omega

/-- A source that closes nothing but its own brackets is nowhere below depth zero. -/
theorem depth_nonneg (h : Opens opened source) (position : Nat) : 0 ≤ depth source position := by
  induction h generalizing position with
  | balanced hbody => exact depth_nonneg_of_balanced hbody position
  | bracket _ hb hbody ih =>
      rw [depth_append]
      have hfront := ih position
      rcases position - _ with _ | past
      · simpa
      · have hinner := depth_nonneg_of_balanced hbody past
        rw [depth_cons_succ, hb, Role.weight]
        omega

end Opens

end Source

end TapeMachine
