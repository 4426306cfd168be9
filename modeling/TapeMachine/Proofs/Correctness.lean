import TapeMachine.Proofs.Walk

/-!
# Correctness of compilation

`compile_correct` compares a compiled program with a walk over its source: they end in the same
way with the same tape, head, input and output, or neither of them ends.

Three steps lead there. A walker goes in lockstep with the machine on the bytewise program of the
source. For an accepted source this program is the layout of a block with one command for each
byte. This block is equivalent to the block that the operators are read as, and machines that
start equivalent blocks end alike.
-/

namespace TapeMachine

/-- The bytewise program of a compiled source and the compiled program end alike. -/
theorem ends_bytewise_iff {σ ε : Type} [Device σ ε] {source : Source} {program : Program}
    (hcompile : compile source = .ok program) (hlength : fitsWord source.length) {size : Nat}
    {store left : Store σ} {steps : Int} {outcome : Outcome ε} (hbounds : store.InBounds size) :
    (∃ final, Machine.Ends program.code none ⟨store, 0, steps⟩ outcome final ∧
      final.store = left) ↔
    ∃ final, Machine.Ends source.bytewise.code none ⟨store, 0, steps⟩ outcome final ∧
      final.store = left := by
  obtain ⟨hbalanced, rfl⟩ := compile_eq_ok_iff.mp hcompile
  have hwhole : source = [] ++ (source ++ []) := by simp
  obtain ⟨tree, hlayout, hequivalent⟩ := Block.exists_tree (σ := σ) hbalanced hwhole hlength
  have htree : tree.assemble = source.bytewise :=
    Array.toList_inj.mp ((Block.toList_assemble tree).trans hlayout)
  rw [← htree]
  exact hequivalent.symm.ends_iff hbounds

namespace Walk

variable {size : Nat}

/-- Different outcomes of a walk are different outcomes of a machine. -/
theorem Outcome.toMachine_inj {outcome outcome' : Outcome}
    (h : outcome.toMachine = outcome'.toMachine) : outcome = outcome' := by
  cases outcome <;> cases outcome' <;> first | rfl | cases h

/-- A walk ends as the machine on the bytewise program ends. -/
theorem ends_iff_bytewise {source : Source} {walker : Walk size} {outcome : Outcome}
    {left : Store Console} {steps : Int} :
    (∃ final, Machine.Ends source.bytewise.code none ⟨walker.store, walker.position, steps⟩
      outcome.toMachine final ∧ final.store = left) ↔
    ∃ final, Ends source walker outcome final ∧ final.store = left := by
  constructor
  · rintro ⟨final, ⟨hended, fuel, hexecute⟩, rfl⟩
    obtain ⟨final', hexecute', hstore⟩ := execute_bytewise source fuel walker steps
    obtain ⟨houtcome, rfl⟩ := Prod.mk.inj (hexecute'.symm.trans hexecute)
    have hwalk := Outcome.toMachine_inj houtcome
    refine ⟨(walk source fuel walker).2, ⟨?_, fuel, Prod.ext hwalk rfl⟩, hstore.symm⟩
    rintro rfl
    exact hended rfl
  · rintro ⟨final, ⟨hended, fuel, hwalk⟩, rfl⟩
    obtain ⟨final', hexecute, hstore⟩ := execute_bytewise source fuel walker steps
    rw [hwalk] at hexecute hstore
    refine ⟨final', ⟨fun heq ↦ hended (Outcome.toMachine_inj heq), fuel, hexecute⟩, hstore⟩

/-- The machine on the bytewise program has no outcome that a walk cannot have. -/
theorem exists_toMachine_eq {source : Source} {walker : Walk size} {steps : Int}
    {outcome : TapeMachine.Outcome ConsoleFault} {final : Machine Console}
    (h : Machine.Ends source.bytewise.code none ⟨walker.store, walker.position, steps⟩ outcome
      final) : ∃ outcome' : Outcome, outcome'.toMachine = outcome := by
  obtain ⟨_, fuel, hexecute⟩ := h
  obtain ⟨final', hexecute', _⟩ := execute_bytewise source fuel walker steps
  exact ⟨_, (Prod.mk.inj (hexecute'.symm.trans hexecute)).1⟩

/-- The machine that starts on a blank tape has the store of a walker that starts. -/
theorem store_start (size_pos : 0 < size) (input : List UInt8) :
    (start size size_pos input).store =
      ⟨Tape.blank size size_pos, 0, Console.ofInput input⟩ := by
  simp [start, store, Tape.blank, Console.ofInput, Console.start]

end Walk

/-- A compiled program does what its source says byte by byte.

On a blank tape of any size and with any input, the program finishes exactly when the walk over
the source does, and runs out of input exactly when the walk does, each time with the same tape,
head, output and unread input. So the one runs forever exactly when the other does. -/
theorem compile_correct (size : Nat) (size_pos : 0 < size) {source : Source} {program : Program}
    (hcompile : compile source = .ok program) (hlength : fitsWord source.length)
    (input : List UInt8) :
    let machine := Machine.start (Tape.blank size size_pos) (Console.ofInput input)
    let walker := Walk.start size size_pos input
    (∀ store, (∃ final, Machine.Ends program.code none machine .finished final ∧
        final.store = store) ↔
      ∃ final, Walk.Ends source walker .finished final ∧ final.store = store) ∧
    (∀ store, (∃ final, Machine.Ends program.code none machine
        (.faulted (.device .endOfInput)) final ∧ final.store = store) ↔
      ∃ final, Walk.Ends source walker .exhausted final ∧ final.store = store) ∧
    ((∀ fuel, (machine.execute program.code none fuel).1 = .unfinished) ↔
      ∀ fuel, (Walk.walk source fuel walker).1 = .unfinished) := by
  intro machine walker
  have hmachine : machine = ⟨walker.store, walker.position, 0⟩ := by
    show Machine.start _ _ = ⟨walker.store, 0, 0⟩
    rw [Walk.store_start, Machine.start]
  have hbounds : walker.store.InBounds size := walker.inBounds_store
  have hends : ∀ outcome store, (∃ final, Machine.Ends program.code none machine outcome final ∧
      final.store = store) ↔ ∃ final, Machine.Ends source.bytewise.code none machine outcome
        final ∧ final.store = store := by
    intro outcome store
    rw [hmachine]
    exact ends_bytewise_iff hcompile hlength hbounds
  have hwalks : ∀ (outcome : Walk.Outcome) store, (∃ final, Machine.Ends program.code none machine
      outcome.toMachine final ∧ final.store = store) ↔
        ∃ final, Walk.Ends source walker outcome final ∧ final.store = store := by
    intro outcome store
    rw [hends, hmachine]
    exact Walk.ends_iff_bytewise
  refine ⟨hwalks .finished, hwalks .exhausted, ?_⟩
  rw [Machine.forall_unfinished_iff, Walk.forall_unfinished_iff, not_congr]
  constructor
  · rintro ⟨outcome, final, hend⟩
    obtain ⟨final', hbytewise, _⟩ := (hends _ _).mp ⟨final, hend, rfl⟩
    rw [hmachine] at hbytewise
    obtain ⟨outcome', rfl⟩ := Walk.exists_toMachine_eq hbytewise
    obtain ⟨last, hwalk, _⟩ := (hwalks _ _).mp ⟨final, hend, rfl⟩
    exact ⟨outcome', last, hwalk⟩
  · rintro ⟨outcome, last, hwalk⟩
    obtain ⟨final, hend, _⟩ := (hwalks _ _).mpr ⟨last, hwalk, rfl⟩
    exact ⟨_, final, hend⟩

/-- A program with a loop in it, and input for two rounds of the loop. -/
theorem compile_correct_countdown :
    ∃ program final, compile [0x2C, 0x5B, 0x2E, 0x2D, 0x5D] = .ok program ∧
      Machine.Ends program.code none (Machine.start (Tape.blank 1 (by decide))
        (Console.ofInput [2])) .finished final ∧ final.store.device.delivered = #[2, 1] := by
  let last : Walk 1 := ⟨#v[0], ⟨0, by decide⟩, [], #[2, 1], 5⟩
  have hsteps : Walk.walk [0x2C, 0x5B, 0x2E, 0x2D, 0x5D] 9 (Walk.start 1 (by decide) [2]) =
      (.finished, last) := rfl
  have hwalk : Walk.Ends [0x2C, 0x5B, 0x2E, 0x2D, 0x5D] (Walk.start 1 (by decide) [2])
      .finished last := ⟨by decide, 9, hsteps⟩
  obtain ⟨program, hcompile⟩ :
      ∃ program, compile [0x2C, 0x5B, 0x2E, 0x2D, 0x5D] = .ok program := ⟨_, rfl⟩
  obtain ⟨final, hend, hstore⟩ :=
    ((compile_correct 1 (by decide) hcompile (by decide) [2]).1 last.store).mpr
      ⟨last, hwalk, rfl⟩
  exact ⟨program, final, hcompile, hend, by rw [hstore]; rfl⟩

end TapeMachine
