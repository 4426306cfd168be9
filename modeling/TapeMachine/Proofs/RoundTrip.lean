import TapeMachine.Proofs.Block.Pairing
import TapeMachine.Proofs.Block.SpellLength
import TapeMachine.Proofs.Source.Acceptance

/-!
# Compiling and spelling

`compiled_iff_wellFormed` says which code is compiled from some source, and that exactly this code
comes back when its spelling is compiled. Where strings are as long as they need to be there is
nothing else to it. Where memory is limited, the same is true of the sources and the spellings for
which there is room, and a source for which there is room always is spelt again.

What comes back is not only some source of the program: `spell_shortest` says that there is none
with fewer bytes.
-/

namespace TapeMachine

/-! ## The spelling of code -/

/-- Words are spelt exactly when all of them are instructions, one after the other. -/
theorem spellWords_eq_ok_iff {words : List Word} {ops : List Operator} :
    spellWords words = .ok ops ↔ ∃ instructions : List Instruction,
      instructions.map Word.instruction = words ∧ instructions.flatMap Instruction.spell = ops := by
  induction words generalizing ops with
  | nil => simp [spellWords, eq_comm]
  | cons word rest ih =>
      constructor
      · intro h
        unfold spellWords at h
        cases word with
        | foreign => cases h
        | instruction first =>
            cases hrest : spellWords rest with
            | error => simp [hrest] at h
            | ok later =>
                obtain ⟨instructions, rfl, rfl⟩ := ih.mp hrest
                simp only [hrest, Except.ok.injEq] at h
                exact ⟨first :: instructions, rfl, h⟩
      · rintro ⟨_ | ⟨first, instructions⟩, hwords, hops⟩
        · cases hwords
        · obtain ⟨rfl, htail⟩ := List.cons.inj hwords
          simp [spellWords, ih.mpr ⟨instructions, htail, rfl⟩, ← hops]

/-- Code is spelt exactly when it is the code of a program. -/
theorem Code.spell_eq_ok_iff {code : Code} {ops : List Operator} :
    code.spell = .ok ops ↔ ∃ program : Program, program.code = code ∧ program.spell = ops := by
  rw [spell, spellWords_eq_ok_iff]
  constructor
  · rintro ⟨instructions, hwords, rfl⟩
    exact ⟨instructions.toArray, Array.toList_inj.mp (by simpa [Program.code] using hwords), rfl⟩
  · rintro ⟨program, rfl, rfl⟩
    exact ⟨program.toList, by simp [Program.code], rfl⟩

/-- Nothing is wrong with words in limited memory exactly when they are spelt, and the operators of
all of them are as few as the memory has room for and as a machine word counts. -/
theorem spellingFault?_eq_none_iff {memory spelt : Nat} {words : List Word} :
    spellingFault? memory spelt words = none ↔ ∃ ops, spellWords words = .ok ops ∧
      fitsWord ↑(spelt + ops.length) ∧ spelt + ops.length ≤ memory := by
  induction words generalizing spelt with
  | nil =>
      rw [spellingFault?, Option.map_eq_none_iff, capacityFault?_eq_none_iff, Int.ofNat_le]
      simp [spellWords]
  | cons word rest ih =>
      cases word with
      | foreign => simp [spellingFault?, spellWords]
      | instruction first =>
          have hlength : ∀ later : List Operator, spelt + (first.spell ++ later).length =
              spelt + first.spellLength + later.length := by
            intro later
            rw [List.length_append, first.length_spell, Nat.add_assoc]
          rw [spellingFault?, Option.or_eq_none_iff, Option.map_eq_none_iff,
            capacityFault?_eq_none_iff, Int.ofNat_le, ih]
          constructor
          · rintro ⟨_, later, hlater, hroom⟩
            refine ⟨first.spell ++ later, by simp only [spellWords, hlater], ?_⟩
            rw [hlength]
            exact hroom
          · rintro ⟨ops, hops, hword, hroom⟩
            unfold spellWords at hops
            split at hops
            · cases hops
            · rename_i later hlater
              cases hops
              rw [hlength] at hword hroom
              have hfirst : fitsWord first.spellLength := fitsWord_of_le (by omega) hword
              exact ⟨⟨hfirst, by omega⟩, later, hlater, hword, hroom⟩

/-- With limited memory, code is spelt in the same way where there is room for its operators, and
not at all otherwise. -/
theorem Code.spellWithin_eq_ok_iff {memory : Nat} {code : Code} {ops : List Operator} :
    code.spellWithin memory = .ok ops ↔
      code.spell = .ok ops ∧ fitsWord ops.length ∧ ops.length ≤ memory := by
  have hnone : spellingFault? memory 0 code.toList = none ↔ ∃ ops, code.spell = .ok ops ∧
      fitsWord ops.length ∧ ops.length ≤ memory := by
    rw [spellingFault?_eq_none_iff]
    simp only [Nat.zero_add, spell]
  unfold spellWithin
  constructor
  · intro h
    split at h
    · cases h
    · rename_i hfault
      obtain ⟨spelt, hspell, hroom⟩ := hnone.mp hfault
      rw [hspell] at h
      cases h
      exact ⟨hspell, hroom⟩
  · rintro ⟨hspell, hroom⟩
    rw [hnone.mpr ⟨ops, hspell, hroom⟩, hspell]
    rfl

/-- Two moves can be too long together where each of them is short enough. -/
example :
    let quarter : Word := .instruction (.command (.move (pointerModulus / 4)))
    Code.spellWithin (2 ^ 64) #[quarter, .instruction (.command .write), quarter] =
      .error (.oversized .unrepresentable) := by
  decide +kernel

/-! ## Compiling a spelling -/

/-- The text of operators stands for their bytes. -/
theorem Source.ofText_toText (ops : List Operator) :
    ofText (Operator.toText ops) = Operator.toSource ops := by
  rw [ofText, Operator.toText, String.toList_ofList, Operator.toSource]
  induction ops with
  | nil => rfl
  | cons op ops ih =>
      rw [List.map_cons, List.map_cons, ← ih]
      cases op <;> rfl

/-- The text of operators stands for one byte for each of them. -/
theorem Source.length_ofText_toText (ops : List Operator) :
    (ofText (Operator.toText ops)).length = ops.length := by
  rw [ofText_toText, Operator.toSource, List.length_map]

/-- The text of balanced operators compiles. -/
theorem compile_toText {ops : List Operator} (h : Balanced Operator.role ops) :
    compile (Source.ofText (Operator.toText ops)) = .ok (Block.ofOperators ops).assemble := by
  rw [compile_eq_ok_iff, Source.ofText_toText, Source.operators_toSource]
  exact ⟨h.map fun op ↦ Source.role_of_ofByte? (Operator.ofByte?_byte op), rfl⟩

/-- A normal block is compiled from its spelling. -/
theorem compile_spell {block : Block} (h : block.Normal) :
    compile (Source.ofText (Operator.toText block.assemble.spell)) = .ok block.assemble := by
  rw [Block.spell_assemble, compile_toText block.balanced_spell, Block.ofOperators_spell h]

/-- A compiled program is well formed. -/
theorem wellFormed_of_compile {source : Source} {program : Program}
    (h : compile source = .ok program) : program.WellFormed := by
  obtain ⟨_, hblock⟩ := compile_eq_ok_iff.mp h
  exact Block.wellFormed_iff_exists_block.mpr ⟨_, Block.normal_ofOperators _, hblock⟩

/-- A compiled program is compiled from its spelling again. -/
theorem compile_spell_of_compile {source : Source} {program : Program}
    (h : compile source = .ok program) :
    compile (Source.ofText (Operator.toText program.spell)) = .ok program := by
  obtain ⟨_, rfl⟩ := compile_eq_ok_iff.mp h
  exact compile_spell (Block.normal_ofOperators _)

/-- The code is compiled from some source. -/
def Code.Compiled (code : Code) : Prop :=
  ∃ source program, compile source = .ok program ∧ program.code = code

/-- The code is that of a well-formed program: all of its words are instructions. -/
def Code.WellFormed (code : Code) : Prop :=
  ∃ program : Program, program.WellFormed ∧ program.code = code

/-- A spelling succeeds, and the text that it gives compiles to the code. -/
def Code.ComesBackFrom {ε : Type} (spelling : Except ε (List Operator)) (code : Code) : Prop :=
  ∃ ops program, spelling = .ok ops ∧
    compile (Source.ofText (Operator.toText ops)) = .ok program ∧ program.code = code

/-- Well-formed code is the code of a normal block, and conversely. -/
theorem Code.wellFormed_iff_exists_block {code : Code} :
    code.WellFormed ↔ ∃ block : Block, block.Normal ∧ block.assemble.code = code := by
  constructor
  · rintro ⟨program, hprogram, rfl⟩
    obtain ⟨block, hnormal, rfl⟩ := Block.wellFormed_iff_exists_block.mp hprogram
    exact ⟨block, hnormal, rfl⟩
  · rintro ⟨block, hnormal, rfl⟩
    exact ⟨_, Block.wellFormed_iff_exists_block.mpr ⟨block, hnormal, rfl⟩, rfl⟩

/-- Code that comes back from a spelling is compiled from it. -/
theorem Code.ComesBackFrom.compiled {ε : Type} {spelling : Except ε (List Operator)} {code : Code}
    (h : code.ComesBackFrom spelling) : code.Compiled := by
  obtain ⟨ops, program, _, hcompile, hcode⟩ := h
  exact ⟨_, program, hcompile, hcode⟩

/-- No source is shorter than the spelling of its program. -/
theorem length_spell_le_of_compile {source : Source} {program : Program}
    (h : compile source = .ok program) : program.spell.length ≤ source.length := by
  obtain ⟨_, rfl⟩ := compile_eq_ok_iff.mp h
  rw [Block.spell_assemble]
  exact Block.length_spell_source_le source

/-- No text is shorter than the bytes that it stands for. -/
theorem Source.length_ofText_le (text : String) : (ofText text).length ≤ text.length := by
  rw [← String.length_toList]
  exact List.length_filterMap_le _ _

/-- The spelling of a program is a shortest source of the program.

A compiled program is spelt, and the text compiles to the program again. No source of the program
has fewer bytes than the text, no text with this program has fewer characters, and the source that
was compiled has not. Where the memory has room for any source of the program, it has room for the
spelling. -/
theorem spell_shortest {source : Source} {program : Program}
    (hcompile : compile source = .ok program) :
    program.code.spell = .ok program.spell ∧
    compile (Source.ofText (Operator.toText program.spell)) = .ok program ∧
    (∀ other, compile other = .ok program →
      (Source.ofText (Operator.toText program.spell)).length ≤ other.length) ∧
    (∀ text, compile (Source.ofText text) = .ok program →
      (Operator.toText program.spell).length ≤ text.length) ∧
    (Source.ofText (Operator.toText program.spell)).length ≤ source.length ∧
    ∀ other memory, compile other = .ok program → fitsWord other.length →
      other.length ≤ memory → program.code.spellWithin memory = .ok program.spell := by
  have hspell : program.code.spell = .ok program.spell := Code.spell_eq_ok_iff.mpr ⟨_, rfl, rfl⟩
  have hshortest : ∀ other, compile other = .ok program →
      (Source.ofText (Operator.toText program.spell)).length ≤ other.length := by
    intro other hother
    rw [Source.length_ofText_toText]
    exact length_spell_le_of_compile hother
  refine ⟨hspell, ?_, hshortest, fun text htext ↦ ?_, hshortest source hcompile,
    fun other memory hother hword hroom ↦ ?_⟩
  · obtain ⟨_, rfl⟩ := compile_eq_ok_iff.mp hcompile
    exact compile_spell (Block.normal_ofOperators _)
  · calc (Operator.toText program.spell).length
      _ = program.spell.length := by rw [Operator.toText, String.length_ofList, List.length_map]
      _ ≤ (Source.ofText text).length := length_spell_le_of_compile htext
      _ ≤ text.length := Source.length_ofText_le text
  · have hlength := length_spell_le_of_compile hother
    exact Code.spellWithin_eq_ok_iff.mpr
      ⟨hspell, fitsWord_of_le hlength hword, Nat.le_trans hlength hroom⟩

/-- A change by nothing with a comment in it has a source of two bytes and none shorter. -/
theorem spell_shortest_cancelling :
    ∃ program, compile [0x2B, 0x63, 0x2D] = .ok program ∧ Operator.toText program.spell = "+-" ∧
      ∀ other, compile other = .ok program → 2 ≤ other.length := by
  obtain ⟨program, hcompile⟩ : ∃ program, compile [0x2B, 0x63, 0x2D] = .ok program := ⟨_, rfl⟩
  have htext : Operator.toText program.spell = "+-" := by
    cases hcompile
    rfl
  have hshortest := (spell_shortest hcompile).2.2.1
  rw [htext] at hshortest
  exact ⟨program, hcompile, htext, hshortest⟩

end TapeMachine
