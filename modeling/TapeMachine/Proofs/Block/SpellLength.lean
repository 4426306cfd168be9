import TapeMachine.Proofs.Block.Spelling

/-!
# The length of a spelling

A change or a move is spelt in the direction that needs fewer operators, `turnLength`. One more
operator in front of a source makes the spelling longer by at most one, so a source is never
shorter than the spelling of its program, `length_spell_ofOperators_le`.
-/

namespace TapeMachine

/-- The number of operators for a delta modulo `modulus`, with two for the delta zero. -/
def turnLength (modulus delta : Int) : Nat :=
  if delta = 0 then 2 else min delta.toNat (modulus - delta).toNat

/-- One step more, in either direction, needs at most one operator more. -/
theorem turnLength_emod_le {modulus delta later : Int} (hmodulus : 1 < modulus)
    (hdelta : delta = 1 ∨ delta = modulus - 1) (hlow : 0 ≤ later) (hhigh : later < modulus) :
    turnLength modulus ((delta + later) % modulus) ≤ turnLength modulus later + 1 := by
  have hresidue : (delta + later) % modulus =
      if modulus ≤ delta + later then delta + later - modulus else delta + later := by
    split
    · rw [← Int.sub_emod_right, Int.emod_eq_of_lt (by omega) (by omega)]
    · exact Int.emod_eq_of_lt (by omega) (by omega)
  rw [hresidue]
  unfold turnLength
  split <;> split <;> split <;> omega

namespace Command

/-- The number of operators of a change of the cell. -/
theorem length_spell_add {delta : Int} (h : (add delta).InRange) :
    (add delta).spell.length = turnLength cellModulus delta := by
  obtain ⟨hlow, hhigh⟩ := h
  by_cases hzero : delta = 0
  · rw [hzero]
    rfl
  · have hbound : delta < 256 := hhigh
    have hresidue : delta % cellModulus = delta := Int.emod_eq_of_lt hlow hhigh
    have hmodulus : cellModulus = 256 := rfl
    have hne : delta.toNat ≠ 0 := by omega
    simp only [spell, turnLength, hresidue, hne, hzero, if_false]
    rw [hmodulus]
    split <;> rw [List.length_replicate] <;> omega

/-- The number of operators of a move of the head. -/
theorem length_spell_move {delta : Int} (h : (move delta).InRange) :
    (move delta).spell.length = turnLength pointerModulus delta := by
  obtain ⟨hlow, hhigh⟩ := h
  by_cases hzero : delta = 0
  · rw [hzero]
    rfl
  · have hbound : delta < 18446744073709551616 := hhigh
    have hmodulus : pointerModulus = 18446744073709551616 := rfl
    have hoffset : signedOffset delta =
        if 9223372036854775808 ≤ delta then delta - 18446744073709551616 else delta := rfl
    have hne : signedOffset delta ≠ 0 := by
      split at hoffset <;> omega
    simp only [spell, hne, if_false, turnLength, hzero, hmodulus]
    split at hoffset <;> split <;> rw [List.length_replicate] <;> omega

/-- The command of an operator is spelt by one operator. -/
theorem length_spell_of_command? {op : Operator} {c : Command} (h : op.command? = some c) :
    c.spell.length = 1 := by
  cases op <;> cases h <;> rfl

/-- The command of an operator makes the spelling of a command that it joins longer by one
operator at most. -/
theorem length_spell_join_le {op : Operator} {c d joint : Command} (hop : op.command? = some c)
    (hd : d.InRange) (hjoin : c.join? d = some joint) :
    joint.spell.length ≤ d.spell.length + 1 := by
  have hjoint := inRange_of_join? hjoin
  unfold join? at hjoin
  split at hjoin
  · rename_i delta later
    cases hjoin
    have hdelta : delta = 1 ∨ delta = cellModulus - 1 := by
      cases op <;> cases hop <;> simp
    rw [length_spell_add hjoint, length_spell_add hd]
    exact turnLength_emod_le (by decide) hdelta hd.1 hd.2
  · rename_i delta later
    cases hjoin
    have hdelta : delta = 1 ∨ delta = pointerModulus - 1 := by
      cases op <;> cases hop <;> simp
    rw [length_spell_move hjoint, length_spell_move hd]
    exact turnLength_emod_le (by decide) hdelta hd.1 hd.2
  · cases hjoin

/-- A move is spelt by at least as many operators as cells that it goes. -/
theorem natAbs_signedOffset_le (delta : Int) :
    (signedOffset delta).natAbs ≤ (move delta).spell.length := by
  simp only [spell]
  split
  · omega
  · split <;> rw [List.length_replicate] <;> omega

end Command

namespace Block

/-- The command of an operator in front of a normal block, joined or not, makes its spelling
longer by one operator at most. -/
theorem length_spell_cons_le {op : Operator} {c : Command} {rest : Block}
    (hop : op.command? = some c) (h : rest.Normal) :
    (cons c rest).spell.length ≤ rest.spell.length + 1 := by
  obtain ⟨d, tail, joint, rfl, hjoin, hcons⟩ | ⟨_, hcons⟩ := cons_cases c rest
  · have hle := Command.length_spell_join_le hop h.1 hjoin
    rw [hcons, spell, spell, List.length_append, List.length_append]
    omega
  · rw [hcons, spell, List.length_append, Command.length_spell_of_command? hop]
    omega

/-- The operators of a draft, with a closing bracket in front of each block that has been set
aside. -/
def Draft.spell (draft : Draft) : List Operator :=
  draft.block.spell ++ draft.following.flatMap fun block ↦ .closing :: block.spell

/-- Reading one more operator makes the spelling of a draft longer by one operator at most. -/
theorem Draft.length_spell_le {draft : Draft} (h : draft.Normal) (op : Operator) :
    (draft.cons op).spell.length ≤ draft.spell.length + 1 := by
  cases hc : op.command? with
  | some c =>
      have hle := length_spell_cons_le hc h.1
      rw [Draft.cons_of_command? hc]
      simp only [spell, List.length_append]
      omega
  | none =>
      cases op with
      | closing =>
          simp [cons, spell, Block.spell]
      | opening =>
          obtain ⟨block, following⟩ := draft
          cases following with
          | nil => exact Nat.le_succ _
          | cons rest outer =>
              simp only [cons, spell, Block.spell, List.flatMap_cons, List.length_append,
                List.length_cons]
              omega
      | _ => cases hc

/-- What operators are read as is never spelt longer than they are. -/
theorem length_spell_ofOperators_le (ops : List Operator) :
    (ofOperators ops).spell.length ≤ ops.length := by
  have hdraft : (ops.foldr Draft.cons ⟨nil, []⟩).Normal ∧
      (ops.foldr Draft.cons ⟨nil, []⟩).spell.length ≤ ops.length := by
    induction ops with
    | nil => exact ⟨⟨trivial, by simp⟩, Nat.le_refl 0⟩
    | cons op ops ih =>
        obtain ⟨hnormal, hle⟩ := ih
        exact ⟨Draft.normal_cons hnormal op,
          Nat.le_trans (Draft.length_spell_le hnormal op) (Nat.succ_le_succ hle)⟩
  refine Nat.le_trans ?_ hdraft.2
  rw [Draft.spell, List.length_append]
  exact Nat.le_add_right _ _

/-- What a source is read as is never spelt longer than the source is. -/
theorem length_spell_source_le (source : Source) :
    (ofOperators source.operators).spell.length ≤ source.length :=
  Nat.le_trans (length_spell_ofOperators_le source.operators) (List.length_filterMap_le _ _)

end Block

end TapeMachine
