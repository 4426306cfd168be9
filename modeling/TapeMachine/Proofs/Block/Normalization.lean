import TapeMachine.Proofs.Block.Cost
import TapeMachine.Proofs.Block.Equivalence
import TapeMachine.Proofs.RoundTrip

/-!
# Programs and what comes back from their spelling

A paired program need not be one that compilation produces: its deltas are arbitrary, and commands
stand side by side that reading would join. It is spelt all the same, and what its spelling compiles
to is its block normalized. The main theorem, `paired_ends_iff_respelled`, says that this changes
nothing about what the program does, as long as the spelling is no longer than a machine word
counts.
-/

namespace TapeMachine

variable {σ ε : Type} [Device σ ε]

namespace Command

/-- A move with few enough operators goes as far as its pointer word. -/
theorem signedOffset_reduce {delta : Int} (h : fitsWord (move delta).spell.length) :
    signedOffset (delta % pointerModulus) = signedOffset delta := by
  have hmodulus : pointerModulus = 18446744073709551616 := rfl
  have hoffset := natAbs_signedOffset_le delta
  unfold fitsWord at h
  simp only [signedOffset, hmodulus] at *
  split at hoffset <;> split <;> omega

/-- A command with few enough operators is spelt like its reduced command. -/
theorem spell_reduce {c : Command} (h : fitsWord c.spell.length) : c.reduce.spell = c.spell := by
  cases c with
  | add delta => simp only [reduce, spell, Int.emod_emod]
  | move delta => simp only [reduce, spell, signedOffset_reduce h]
  | write | read => rfl

/-- A store performs a command with few enough operators like its reduced command. -/
theorem perform_reduce {c : Command} (h : fitsWord c.spell.length) (store : Store σ) :
    store.perform c.reduce = store.perform c := by
  cases c with
  | add delta =>
      have hvalue : ∀ value : UInt8,
          value + UInt8.ofInt (delta % cellModulus) = value + UInt8.ofInt delta := by
        intro value
        have hsum := add_ofInt_emod value delta 0
        rwa [Int.add_zero, show UInt8.ofInt 0 = 0 from rfl, UInt8.add_zero] at hsum
      simp only [reduce, Store.perform, hvalue]
  | move delta => simp only [reduce, Store.perform, signedOffset_reduce h]
  | write | read => rfl

end Command

namespace Block

/-- A normalized block is normal. -/
theorem normal_normalize (block : Block) : block.normalize.Normal := by
  rw [← ofOperators_spell_eq]
  exact normal_ofOperators _

/-- Normalizing makes no spelling longer. -/
theorem length_spell_normalize_le (block : Block) :
    block.normalize.spell.length ≤ block.spell.length := by
  rw [← ofOperators_spell_eq]
  exact length_spell_ofOperators_le _

/-- A block that is not too long means the same normalized. -/
theorem normalize_equivalent {block : Block} (h : fitsWord block.spell.length) :
    block.normalize.Equivalent σ block := by
  induction block with
  | nil => exact .refl nil
  | command c rest ih =>
      rw [spell, List.length_append] at h
      have hc : fitsWord c.spell.length := fitsWord_of_le (Nat.le_add_right _ _) h
      have hrest : fitsWord rest.spell.length := fitsWord_of_le (Nat.le_add_left _ _) h
      have hlength := rest.length_spell_normalize_le
      have hjoined : (cons c.reduce rest.normalize).Equivalent σ
          (command c.reduce rest.normalize) := by
        refine cons_equivalent c.inRange_reduce rest.normal_normalize ?_
        rw [Command.spell_reduce hc]
        exact fitsWord_of_le (by omega) h
      have hreduced : (command c.reduce rest.normalize).Equivalent σ (command c rest.normalize) :=
        equivalent_of_perform_eq (Command.perform_reduce hc)
      exact (hjoined.trans hreduced).trans ((ih hrest).command c)
  | loop body rest ihBody ihRest =>
      rw [spell, List.length_cons, List.length_append, List.length_cons] at h
      exact (ihBody (fitsWord_of_le (by omega) h)).loop (ihRest (fitsWord_of_le (by omega) h))

/-- What the spelling of a block compiles to. -/
theorem compile_spell_eq (block : Block) :
    compile (Source.ofText (Operator.toText block.spell)) = .ok block.normalize.assemble := by
  rw [compile_toText block.balanced_spell, ofOperators_spell_eq]

end Block

/-- A paired program does the same after it has been spelt and compiled again.

Its deltas are arbitrary, only its spelling is no longer than a machine word counts. Then it is
spelt, also where the memory has room for the spelling and no more, and the text compiles. Both
programs end alike from a blank tape of any size and with any input, with the same tape, head,
output and unread input. They can only finish or run out of input, and the one runs forever exactly
when the other does. -/
theorem paired_ends_iff_respelled {program : Program} (hpaired : program.Paired)
    (hlength : fitsWord program.spell.length) :
    program.code.spell = .ok program.spell ∧
    (∀ memory, program.spell.length ≤ memory →
      program.code.spellWithin memory = .ok program.spell) ∧
    ∃ respelled, compile (Source.ofText (Operator.toText program.spell)) = .ok respelled ∧
      ∀ (size : Nat) (size_pos : 0 < size) (input : List UInt8),
        let machine := Machine.start (Tape.blank size size_pos) (Console.ofInput input)
        (∀ outcome store, (∃ final, Machine.Ends program.code none machine outcome final ∧
            final.store = store) ↔
          ∃ final, Machine.Ends respelled.code none machine outcome final ∧
            final.store = store) ∧
        (∀ outcome final, Machine.Ends program.code none machine outcome final →
          outcome = .finished ∨ outcome = .faulted (.device .endOfInput)) ∧
        ((∀ fuel, (machine.execute program.code none fuel).1 = .unfinished) ↔
          ∀ fuel, (machine.execute respelled.code none fuel).1 = .unfinished) := by
  obtain ⟨block, rfl⟩ := Block.paired_iff_exists_block.mp hpaired
  have hspell : block.assemble.code.spell = .ok block.assemble.spell :=
    Code.spell_eq_ok_iff.mpr ⟨block.assemble, rfl, rfl⟩
  rw [Block.spell_assemble] at hlength hspell ⊢
  refine ⟨hspell, fun memory hroom ↦ ?_, block.normalize.assemble, block.compile_spell_eq, ?_⟩
  · exact Code.spellWithin_eq_ok_iff.mpr ⟨hspell, hlength, hroom⟩
  intro size size_pos input machine
  have hbounds : machine.store.InBounds size :=
    ⟨Tape.size_blank size size_pos, Int.le_refl 0, Int.natCast_pos.mpr size_pos⟩
  have hends : ∀ outcome store,
      (∃ final, Machine.Ends block.assemble.code none machine outcome final ∧
        final.store = store) ↔
      ∃ final, Machine.Ends block.normalize.assemble.code none machine outcome final ∧
        final.store = store := by
    intro outcome store
    exact (Block.normalize_equivalent hlength).symm.ends_iff hbounds
  refine ⟨hends, fun outcome final hend ↦ ?_, Machine.forall_unfinished_congr hends⟩
  exact block.ends_inMemory hbounds (.mk _ _ _) hend

/-- A loop over two changes that are not joined and have deltas outside the range of a cell is one
instruction shorter when it comes back, and finishes on the same input. -/
theorem paired_ends_iff_respelled_unmerged :
    let program : Program := #[.command .read, .loopStart 4, .command (.add (-258)),
      .command (.add 257), .loopEnd 1]
    program.Paired ∧ fitsWord program.spell.length ∧
      ∃ respelled, compile (Source.ofText (Operator.toText program.spell)) = .ok respelled ∧
        respelled.size = 4 ∧ ∃ final, Machine.Ends respelled.code none
          (Machine.start (Tape.blank 1 (by decide)) (Console.ofInput [1])) .finished final := by
  intro program
  let tree : Block :=
    .command .read (.loop (.command (.add (-258)) (.command (.add 257) .nil)) .nil)
  have htree : tree.assemble = program := rfl
  have hpaired : program.Paired := Block.paired_iff_exists_block.mpr ⟨tree, htree⟩
  have hlength : fitsWord program.spell.length := by decide
  obtain ⟨-, -, respelled, hcompile, hends⟩ := paired_ends_iff_respelled hpaired hlength
  obtain ⟨hends, -⟩ := hends 1 (by decide) [1]
  have hevaluates : tree.Evaluates
      (Machine.start (Tape.blank 1 (by decide)) (Console.ofInput [1])).store 5 (.ok ())
      ⟨⟨#[0], by decide⟩, 0, .ofInput []⟩ :=
    .command rfl (.again rfl (by decide) (.command rfl (.command rfl .nil)) (.skip rfl .nil))
  obtain ⟨final, hend, -⟩ := hevaluates.ends 0
  obtain ⟨final', hend', -⟩ := (hends .finished final.store).mp ⟨final, hend, rfl⟩
  have hspell : program.spell = tree.spell := tree.spell_assemble
  rw [hspell] at hcompile ⊢
  cases hcompile.symm.trans tree.compile_spell_eq
  exact ⟨hpaired, hlength, _, hcompile, rfl, final', hend'⟩

end TapeMachine
