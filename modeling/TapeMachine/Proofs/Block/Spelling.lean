import TapeMachine.Proofs.Block.Layout
import TapeMachine.Proofs.Block.Reading

/-!
# Spelling blocks

`Block.spell` is the spelling of a block, and of the program that it is laid out as. It is
balanced, and `ofOperators_spell_eq` says what it is read as: `Block.normalize`, where every delta
is brought in range and every command is joined with what it joins. A normal block is read back as
it is, `ofOperators_spell`.
-/

namespace TapeMachine

namespace Block

/-- The operators of a block. -/
def spell : Block → List Operator
  | nil => []
  | command c rest => c.spell ++ rest.spell
  | loop body rest => .opening :: (body.spell ++ .closing :: rest.spell)

/-- A layout is spelt like its block. -/
theorem spell_layout (block : Block) (base : Nat) :
    (block.layout base).flatMap Instruction.spell = block.spell := by
  induction block generalizing base with
  | nil => rfl
  | command c rest ih => simp [layout, spell, Instruction.spell, ih]
  | loop body rest ihBody ihRest =>
      simp [layout, spell, Instruction.spell, ihBody, ihRest]

/-- An assembled program is spelt like its block. -/
theorem spell_assemble (block : Block) : block.assemble.spell = block.spell := by
  rw [Program.spell, toList_assemble, spell_layout]

/-- The operators of a command are not brackets. -/
theorem role_of_mem_spell {c : Command} {op : Operator} (h : op ∈ c.spell) :
    op.role = .plain := by
  cases c with
  | add delta =>
      simp only [Command.spell] at h
      split at h
      · simp only [List.mem_cons, List.not_mem_nil, or_false] at h
        obtain rfl | rfl := h <;> rfl
      · split at h <;> rw [List.eq_of_mem_replicate h] <;> rfl
  | move delta =>
      simp only [Command.spell] at h
      split at h
      · simp only [List.mem_cons, List.not_mem_nil, or_false] at h
        obtain rfl | rfl := h <;> rfl
      · split at h <;> rw [List.eq_of_mem_replicate h] <;> rfl
  | write | read =>
      rw [List.mem_singleton.mp h]
      rfl

/-- Plain operators are balanced. -/
theorem balanced_of_plain {ops : List Operator} (h : ∀ op ∈ ops, op.role = .plain) :
    Balanced Operator.role ops := by
  induction ops with
  | nil => exact .nil
  | cons op ops ih =>
      obtain ⟨hop, hops⟩ := List.forall_mem_cons.mp h
      exact .plain hop (ih hops)

/-- The brackets of a spelling pair up. -/
theorem balanced_spell (block : Block) : Balanced Operator.role block.spell := by
  induction block with
  | nil => exact .nil
  | command c rest ih => exact (balanced_of_plain fun _ h ↦ role_of_mem_spell h).append ih
  | loop body rest ihBody ihRest => exact .pair rfl ihBody rfl ihRest

end Block

/-! ## Reading a spelling -/

/-- The command that stands for the same change or move and has a delta as reading keeps it. -/
def Command.reduce : Command → Command
  | add delta => add (delta % cellModulus)
  | move delta => move (delta % pointerModulus)
  | write => write
  | read => read

/-- A reduced command is in range. -/
theorem Command.inRange_reduce (c : Command) : c.reduce.InRange := by
  cases c with
  | add | move => exact ⟨Int.emod_nonneg _ (by decide), Int.emod_lt_of_pos _ (by decide)⟩
  | write | read => trivial

/-- A command in range is reduced to itself. -/
theorem Command.reduce_of_inRange {c : Command} (h : c.InRange) : c.reduce = c := by
  cases c with
  | add | move => exact congrArg _ (Int.emod_eq_of_lt h.1 h.2)
  | write | read => rfl

namespace Block

/-- The block with every delta in range and every command joined with what it joins. -/
def normalize : Block → Block
  | nil => nil
  | command c rest => cons c.reduce rest.normalize
  | loop body rest => loop body.normalize rest.normalize

/-- A normal block is normalized to itself. -/
theorem normalize_of_normal {block : Block} (h : block.Normal) : block.normalize = block := by
  induction block with
  | nil => rfl
  | command c rest ih =>
      obtain ⟨hrange, hstart, hrest⟩ := h
      rw [normalize, ih hrest, Command.reduce_of_inRange hrange, cons_of_not_startsLike hstart]
  | loop body rest ihBody ihRest =>
      obtain ⟨hbody, hrest⟩ := h
      rw [normalize, ihBody hbody, ihRest hrest]

variable {rest : Block} {following : List Block}

section Turns

-- changes of the cell and moves of the head are both turns modulo something
variable {turn : Int → Command} {modulus delta : Int} {op : Operator}
  (hjoin : ∀ first second, (turn first).join? (turn second) =
    some (turn ((first + second) % modulus)))

include hjoin

/-- A run of one operator is read as one turn in front of what follows. -/
theorem foldr_replicate (hop : op.command? = some (turn delta)) (hlow : 0 ≤ delta)
    (hhigh : delta < modulus) (count : Nat) :
    (List.replicate (count + 1) op).foldr Draft.cons ⟨rest, following⟩ =
      ⟨cons (turn ((count + 1 : Nat) * delta % modulus)) rest, following⟩ := by
  induction count with
  | zero =>
      have hone : ((0 + 1 : Nat) : Int) * delta % modulus = delta := by
        simpa using Int.emod_eq_of_lt hlow hhigh
      rw [hone, List.replicate_one, List.foldr_cons, Draft.cons_of_command? hop]
      rfl
  | succ count ih =>
      have hsum : (delta + (count + 1 : Nat) * delta % modulus) % modulus =
          (count + 1 + 1 : Nat) * delta % modulus := by
        rw [Int.add_emod_emod, Int.natCast_add (count + 1), Int.add_mul, Int.add_comm]
        simp
      rw [List.replicate_succ, List.foldr_cons, ih, Draft.cons_of_command? hop]
      simp only [cons_cons_of_join? (hjoin _ _), hsum]

/-- A run of one operator is read as any command that its turns add up to. -/
theorem foldr_replicate_of_sum {count : Nat} {total : Int} (hop : op.command? = some (turn delta))
    (hlow : 0 ≤ delta) (hhigh : delta < modulus) (hcount : count ≠ 0)
    (htotal : count * delta % modulus = total) :
    (List.replicate count op).foldr Draft.cons ⟨rest, following⟩ =
      ⟨cons (turn total) rest, following⟩ := by
  obtain ⟨count, rfl⟩ := Nat.exists_eq_succ_of_ne_zero hcount
  rw [← htotal]
  exact foldr_replicate hjoin hop hlow hhigh count

/-- Two operators that cancel each other are read as a turn by nothing. -/
theorem foldr_pair {up down : Operator} (hup : up.command? = some (turn 1))
    (hdown : down.command? = some (turn (modulus - 1))) :
    [up, down].foldr Draft.cons ⟨rest, following⟩ = ⟨cons (turn 0) rest, following⟩ := by
  have hsum : 1 + (modulus - 1) = modulus := by omega
  have hzero : (1 + (modulus - 1)) % modulus = 0 := by rw [hsum, Int.emod_self]
  rw [List.foldr_cons, List.foldr_cons, List.foldr_nil, Draft.cons_of_command? hdown,
    Draft.cons_of_command? hup, ← hzero]
  exact congrArg (Draft.mk · following) (cons_cons_of_join? (hjoin 1 (modulus - 1)))

end Turns

/-- The spelling of a change of the cell is read as this change. -/
theorem foldr_spell_add (delta : Int) :
    (Command.add delta).spell.foldr Draft.cons ⟨rest, following⟩ =
      ⟨cons (.add (delta % cellModulus)) rest, following⟩ := by
  have hmodulus : cellModulus = 256 := rfl
  have hjoin : ∀ first second, (Command.add first).join? (.add second) =
      some (.add ((first + second) % cellModulus)) := fun _ _ ↦ rfl
  have hlow : 0 ≤ delta % cellModulus := Int.emod_nonneg _ (by decide)
  have hhigh : delta % cellModulus < 256 := Int.emod_lt_of_pos _ (by decide)
  simp only [Command.spell]
  generalize delta % cellModulus = residue at hlow hhigh
  split
  · -- a delta of zero is spelt by two operators that cancel each other
    obtain rfl : residue = 0 := by omega
    exact foldr_pair hjoin rfl rfl
  · split
    · have htotal : (residue.toNat : Int) * 1 % cellModulus = residue := by
        rw [hmodulus]
        omega
      exact foldr_replicate_of_sum hjoin rfl (by decide) (by decide) (by omega) htotal
    · have htotal : ((256 - residue.toNat : Nat) : Int) * (cellModulus - 1) % cellModulus =
          residue := by
        rw [hmodulus]
        omega
      exact foldr_replicate_of_sum hjoin rfl (by decide) (by decide) (by omega) htotal

/-- The spelling of a move of the head is read as this move. -/
theorem foldr_spell_move (delta : Int) :
    (Command.move delta).spell.foldr Draft.cons ⟨rest, following⟩ =
      ⟨cons (.move (delta % pointerModulus)) rest, following⟩ := by
  have hmodulus : pointerModulus = 18446744073709551616 := rfl
  have hoffset : signedOffset delta =
      if 9223372036854775808 ≤ delta then delta - 18446744073709551616 else delta := rfl
  have hjoin : ∀ first second, (Command.move first).join? (.move second) =
      some (.move ((first + second) % pointerModulus)) := fun _ _ ↦ rfl
  simp only [Command.spell]
  split
  · have hzero : delta % pointerModulus = 0 := by
      rw [hmodulus]
      split at hoffset <;> omega
    rw [hzero]
    exact foldr_pair hjoin rfl rfl
  · split
    · have htotal : ((signedOffset delta).toNat : Int) * 1 % pointerModulus =
          delta % pointerModulus := by
        rw [hmodulus]
        split at hoffset <;> omega
      exact foldr_replicate_of_sum hjoin rfl (by decide) (by decide) (by omega) htotal
    · have htotal : ((-signedOffset delta).toNat : Int) * (pointerModulus - 1) % pointerModulus =
          delta % pointerModulus := by
        rw [hmodulus]
        split at hoffset <;> omega
      exact foldr_replicate_of_sum hjoin rfl (by decide) (by decide) (by omega) htotal

/-- The spelling of a command is read as its reduced command in front of what follows. -/
theorem foldr_spell_command (c : Command) :
    c.spell.foldr Draft.cons ⟨rest, following⟩ = ⟨cons c.reduce rest, following⟩ := by
  cases c with
  | add delta => exact foldr_spell_add delta
  | move delta => exact foldr_spell_move delta
  | write | read =>
      refine congrArg (Draft.mk · following) (cons_of_not_startsLike ?_).symm
      cases rest <;> exact id

/-- The spelling of a block is read as the normalized block. -/
theorem foldr_spell (block : Block) (following : List Block) :
    block.spell.foldr Draft.cons ⟨nil, following⟩ = ⟨block.normalize, following⟩ := by
  induction block generalizing following with
  | nil => rfl
  | command c rest ih => rw [spell, List.foldr_append, ih, foldr_spell_command, normalize]
  | loop body rest ihBody ihRest =>
      rw [spell, List.foldr_cons, List.foldr_append, List.foldr_cons, ihRest]
      simp only [Draft.cons]
      rw [ihBody, normalize]

/-- What the spelling of a block is read as. -/
theorem ofOperators_spell_eq (block : Block) : ofOperators block.spell = block.normalize := by
  rw [ofOperators, foldr_spell]

/-- A normal block is what its spelling is read as. -/
theorem ofOperators_spell {block : Block} (h : block.Normal) :
    ofOperators block.spell = block := by
  rw [ofOperators_spell_eq, normalize_of_normal h]

end Block

end TapeMachine
