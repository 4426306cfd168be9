import TapeMachine.Proofs.Block.Sequence
import TapeMachine.Proofs.Machine.InMemory

/-!
# Sources executed in turn

The program of two sources side by side does what the program of the first does and then, from
there, what the program of the second does: `ends_append_iff`.

The second program goes on with the tape, the head and the unread input of the first, but it is a
program of its own: it starts at its first instruction, with nothing delivered and no steps
counted, `Machine.takeOver`. What has been delivered before makes no difference to a console in
memory, `Console.lockstep_continues`, so the outputs can be joined afterwards.
-/

namespace TapeMachine

/-- The console as it is where what another has delivered comes before. -/
def Console.after (console earlier : Console) : Console :=
  ⟨console.reader, console.writer, earlier.delivered ++ console.delivered,
    earlier.events ++ console.events⟩

/-- The store as it is where what a console has delivered comes before. -/
def Store.after (store : Store Console) (earlier : Console) : Store Console :=
  ⟨store.tape, store.pointer, store.device.after earlier⟩

/-- The machine that starts a program on the tape, head and unread input that another has left, with
its output in memory. -/
def Machine.takeOver (store : Store Console) : Machine Console :=
  ⟨⟨store.tape, store.pointer, .start store.device.reader .buffer⟩, 0, 0⟩

/-- Two programs are executed in turn. The first finishes, and the second takes over and ends; its
output comes behind that of the first. A joint command at the seam is one step less than its two
parts. -/
def Machine.EndsInTurn (first second : Program) (machine : Machine Console)
    (outcome : Outcome ConsoleFault) (left : Store Console) (steps : Int) : Prop :=
  ∃ middle last, Ends first.code none machine .finished middle ∧
    Ends second.code none (takeOver middle.store) outcome last ∧
    last.store.after middle.store.device = left ∧
    steps + first.saved second = middle.steps + last.steps

/-! ## Taking over -/

/-- The first console goes on where another has ended: it is the second one, in memory, with what
has been delivered before. -/
def Console.Continues (earlier console other : Console) : Prop :=
  console = other.after earlier ∧ other.InMemory

/-- What has been delivered before makes no difference to a console in memory. -/
theorem Console.lockstep_continues (earlier : Console) : Device.Lockstep (Continues earlier) := by
  constructor
  · rintro _ _ ⟨rfl, ⟨_ | ⟨value, rest⟩, delivered, events⟩⟩ <;>
      exact ⟨_, _, _, rfl, rfl, rfl, .mk _ _ _⟩
  · rintro value _ _ ⟨rfl, ⟨rest, delivered, events⟩⟩
    exact ⟨_, _, _, rfl, rfl, by simp [after], .mk _ _ _⟩

namespace Machine

/-- Machines side by side, where one goes on and one is by itself, have stores that differ in what
has been delivered before. -/
theorem Alongside.eq_after {earlier : Console} {machine other : Machine Console}
    (h : Alongside (Store.Alike (Console.Continues earlier)) machine other) :
    machine.store = other.store.after earlier ∧ machine.steps = other.steps := by
  obtain ⟨_, _, _, _, rfl, _⟩ := h
  exact ⟨rfl, rfl⟩

/-- A machine that goes on with a console in memory is side by side with one that takes over. -/
theorem alongside_takeOver {store : Store Console} (hmemory : store.device.InMemory) :
    Alongside (Store.Alike (Console.Continues store.device)) ⟨store, 0, 0⟩ (takeOver store) := by
  obtain ⟨tape, pointer, _⟩ := store
  obtain ⟨rest, delivered, events⟩ := hmemory
  exact .mk _ _ (.mk _ _ ⟨by simp [Console.after, Console.start], .mk _ _ _⟩)

end Machine

namespace Block

variable {first second whole block : Block} {store left : Store Console} {cost size : Nat}
  {result : Except (Fault ConsoleFault) Unit} {outcome : Outcome ConsoleFault}

/-- A machine that takes over a store ends as the block evaluates from that store. -/
theorem Evaluates.takeOver (h : block.Evaluates store cost result left)
    (hmemory : store.device.InMemory) :
    ∃ last, Machine.Ends block.assemble.code none (.takeOver store) (Outcome.ofResult result) last ∧
      last.store.after store.device = left ∧ last.steps = cost := by
  obtain ⟨final, hend, rfl, hsteps⟩ := h.ends 0
  obtain ⟨last, hlast, hbeside⟩ :=
    (Machine.alongside_takeOver hmemory).ends (Console.lockstep_continues _).store hend
  obtain ⟨hstore, hcount⟩ := hbeside.eq_after
  exact ⟨last, hlast, hstore.symm, by omega⟩

/-- A machine that takes over a store and comes to an end has evaluated the block from that
store. -/
theorem exists_evaluates_of_takeOver {last : Machine Console} (hmemory : store.device.InMemory)
    (hend : Machine.Ends block.assemble.code none (.takeOver store) outcome last) :
    ∃ cost result, block.Evaluates store cost result (last.store.after store.device) ∧
      outcome = Outcome.ofResult result ∧ last.steps = cost := by
  obtain ⟨final, hfinal, hbeside⟩ :=
    (Machine.alongside_takeOver hmemory).ends_of_other (Console.lockstep_continues _).store hend
  obtain ⟨hstore, hcount⟩ := hbeside.eq_after
  obtain ⟨cost, result, hevaluates, houtcome, hsteps⟩ := exists_evaluates_of_ends hfinal
  rw [hstore] at hevaluates
  exact ⟨cost, result, hevaluates, houtcome, by omega⟩

/-- Blocks that are evaluated one after the other are executed in turn. -/
theorem Evaluates.endsInTurn {middle : Store Console} {early later : Nat} {steps : Int}
    (hfirst : first.Evaluates store early (.ok () : Except (Fault ConsoleFault) Unit) middle)
    (hsecond : second.Evaluates middle later result left) (hmemory : store.device.InMemory)
    (hsteps : steps + first.assemble.saved second.assemble = early + later) :
    Machine.EndsInTurn first.assemble second.assemble ⟨store, 0, 0⟩ (Outcome.ofResult result) left
      steps := by
  obtain ⟨final, hfinal, rfl, hearly⟩ := hfirst.ends 0
  obtain ⟨last, hlast, hleft, hlater⟩ :=
    hsecond.takeOver (Console.keeps_inMemory.ends hmemory hfinal)
  exact ⟨final, last, hfinal, hlast, hleft, by omega⟩

/-- Blocks that are executed in turn have been evaluated one after the other. -/
theorem exists_evaluates_of_endsInTurn {steps : Int} (hmemory : store.device.InMemory)
    (hends : Machine.EndsInTurn first.assemble second.assemble ⟨store, 0, 0⟩ outcome left steps) :
    ∃ middle early later result,
      first.Evaluates store early (.ok () : Except (Fault ConsoleFault) Unit) middle ∧
      second.Evaluates middle later result left ∧ outcome = Outcome.ofResult result ∧
      steps + first.assemble.saved second.assemble = early + later := by
  obtain ⟨final, last, hfinal, hlast, rfl, hsteps⟩ := hends
  obtain ⟨early, result, hfirst, houtcome, hearly⟩ := exists_evaluates_of_ends hfinal
  obtain rfl : result = .ok () := Outcome.ofResult_inj houtcome.symm
  obtain ⟨later, result, hsecond, houtcome', hlater⟩ :=
    exists_evaluates_of_takeOver (Console.keeps_inMemory.ends hmemory hfinal) hlast
  exact ⟨final.store, early, later, result, hfirst, hsecond, houtcome', by omega⟩

/-- The machine of a block that is welded to another ends as the machines of both in turn, or as
that of the first where this one does not finish. -/
theorem Welds.ends_iff {steps : Int} (h : Welds first second whole) (hfirst : first.Normal)
    (hsecond : second.Normal)
    (hlength : fitsWord (first.spell.length + second.spell.length : Nat))
    (hbounds : store.InBounds size) (hmemory : store.device.InMemory) :
    (∃ final, Machine.Ends whole.assemble.code none ⟨store, 0, 0⟩ outcome final ∧
        final.store = left ∧ final.steps = steps) ↔
      Machine.EndsInTurn first.assemble second.assemble ⟨store, 0, 0⟩ outcome left steps ∨
      outcome ≠ .finished ∧ ∃ final, Machine.Ends first.assemble.code none ⟨store, 0, 0⟩ outcome
        final ∧ final.store = left ∧ final.steps = steps := by
  constructor
  · intro hends
    obtain ⟨final, hend, rfl, rfl⟩ := hends
    obtain ⟨cost, result, hwhole, rfl, hsteps⟩ := exists_evaluates_of_ends hend
    obtain ⟨middle, early, later, hearly, hlater, hcost⟩ | ⟨fault, rfl, hfault⟩ :=
      (h.evaluates_iff hfirst hsecond hlength hbounds).mp hwhole
    · exact .inl (hearly.endsInTurn hlater hmemory (by omega))
    · obtain ⟨final', hend', hstore', hsteps'⟩ := hfault.ends 0
      exact .inr ⟨nofun, final', hend', hstore', by omega⟩
  · intro hparts
    rcases hparts with hinTurn | ⟨hfailed, final, hend, rfl, rfl⟩
    · obtain ⟨middle, early, later, result, hearly, hlater, rfl, hsteps⟩ :=
        exists_evaluates_of_endsInTurn hmemory hinTurn
      have hsaved := h.saved_le hearly
      have hwhole : whole.Evaluates store
          (early + later - first.assemble.saved second.assemble) result left :=
        (h.evaluates_iff hfirst hsecond hlength hbounds).mpr
          (.inl ⟨middle, early, later, hearly, hlater, by omega⟩)
      obtain ⟨final, hend, hstore, hcost⟩ := hwhole.ends 0
      exact ⟨final, hend, hstore, by omega⟩
    · obtain ⟨cost, result, hevaluates, rfl, hsteps⟩ := exists_evaluates_of_ends hend
      cases result with
      | ok => exact absurd rfl hfailed
      | error fault =>
          have hwhole : whole.Evaluates store cost (.error fault) final.store :=
            (h.evaluates_iff hfirst hsecond hlength hbounds).mpr (.inr ⟨fault, rfl, hevaluates⟩)
          obtain ⟨final', hend', hstore', hcost⟩ := hwhole.ends 0
          exact ⟨final', hend', hstore', by omega⟩

end Block

/-! ## Compilation -/

variable {a b : Source} {first second : Program}

/-- The program of two sources side by side ends as their programs in turn, or as that of the first
where this one does not finish, from every store with its head on the tape and its console in
memory. -/
theorem ends_weld_iff (ha : compile a = .ok first) (hb : compile b = .ok second)
    (hlength : fitsWord (a ++ b).length) {size : Nat} {store left : Store Console}
    {outcome : Outcome ConsoleFault} {steps : Int} (hbounds : store.InBounds size)
    (hmemory : store.device.InMemory) :
    (∃ final, Machine.Ends (first.weld second).code none ⟨store, 0, 0⟩ outcome final ∧
        final.store = left ∧ final.steps = steps) ↔
      Machine.EndsInTurn first second ⟨store, 0, 0⟩ outcome left steps ∨
      outcome ≠ .finished ∧ ∃ final, Machine.Ends first.code none ⟨store, 0, 0⟩ outcome final ∧
        final.store = left ∧ final.steps = steps := by
  obtain ⟨_, rfl⟩ := compile_eq_ok_iff.mp ha
  obtain ⟨_, rfl⟩ := compile_eq_ok_iff.mp hb
  have hnormal := Block.normal_ofOperators a.operators
  have hwelds := Block.welds_weld hnormal (Block.ofOperators b.operators)
  have hspell : fitsWord ((Block.ofOperators a.operators).spell.length +
      (Block.ofOperators b.operators).spell.length : Nat) := by
    refine fitsWord_of_le ?_ hlength
    rw [List.length_append]
    exact Nat.add_le_add (Block.length_spell_source_le a) (Block.length_spell_source_le b)
  rw [← hwelds.assemble_eq]
  exact hwelds.ends_iff hnormal (Block.normal_ofOperators b.operators) hspell hbounds hmemory

/-- Compiled sources side by side are executed in turn.

On a blank tape of any size and with any input, the program of the whole source finishes exactly
when the program of the first source finishes and that of the second, taking over the tape, head and
unread input, finishes too. It runs out of input exactly when the first program does, or when the
first one finishes and the second one does. Each time the tape, the head and the unread input are
the same, and the output is that of the first program and then that of the second. The steps are
those of both, less one exactly where a command of the first and one of the second join at the
seam. -/
theorem ends_append_iff (ha : compile a = .ok first) (hb : compile b = .ok second)
    (hlength : fitsWord (a ++ b).length) (size : Nat) (size_pos : 0 < size)
    (input : List UInt8) :
    let machine := Machine.start (Tape.blank size size_pos) (Console.ofInput input)
    let program := first.weld second
    compile (a ++ b) = .ok program ∧
    (∀ left steps, (∃ final, Machine.Ends program.code none machine .finished final ∧
        final.store = left ∧ final.steps = steps) ↔
      Machine.EndsInTurn first second machine .finished left steps) ∧
    ∀ left steps, (∃ final, Machine.Ends program.code none machine
        (.faulted (.device .endOfInput)) final ∧ final.store = left ∧ final.steps = steps) ↔
      Machine.EndsInTurn first second machine (.faulted (.device .endOfInput)) left steps ∨
      ∃ final, Machine.Ends first.code none machine (.faulted (.device .endOfInput)) final ∧
        final.store = left ∧ final.steps = steps := by
  intro machine program
  have hbounds : machine.store.InBounds size :=
    ⟨Tape.size_blank size size_pos, Int.le_refl 0, Int.natCast_pos.mpr size_pos⟩
  have hmemory : machine.store.device.InMemory := .mk input #[] #[]
  refine ⟨compile_append ha hb, fun left steps ↦ ?_, fun left steps ↦ ?_⟩
  · refine (ends_weld_iff ha hb hlength hbounds hmemory).trans (or_iff_left ?_)
    intro hfailed
    exact hfailed.1 rfl
  · exact (ends_weld_iff ha hb hlength hbounds hmemory).trans
      (or_congr_right (and_iff_right nofun))

/-- Two sources that both write and meet within a run: three steps and two steps make four. -/
theorem ends_append_iff_within_run :
    let a : Source := [0x2C, 0x2E, 0x2B]
    let b : Source := [0x2B, 0x2E]
    ∃ program final, compile (a ++ b) = .ok program ∧
      Machine.Ends program.code none
        (Machine.start (Tape.blank 1 (by decide)) (Console.ofInput [1])) .finished final ∧
      final.store.device.delivered = #[1, 3] ∧ final.steps = 4 := by
  intro a b
  have ha : compile a = .ok #[.command .read, .command .write, .command (.add 1)] := rfl
  have hb : compile b = .ok #[.command (.add 1), .command .write] := rfl
  let middle : Machine Console := ⟨⟨⟨#[2], by decide⟩, 0, ⟨.buffer [], .buffer, #[1], #[]⟩⟩, 3, 3⟩
  let last : Machine Console := ⟨⟨⟨#[3], by decide⟩, 0, ⟨.buffer [], .buffer, #[3], #[]⟩⟩, 2, 2⟩
  have hinTurn : Machine.EndsInTurn #[.command .read, .command .write, .command (.add 1)]
      #[.command (.add 1), .command .write]
      (Machine.start (Tape.blank 1 (by decide)) (Console.ofInput [1])) .finished
      (last.store.after middle.store.device) 4 := by
    refine ⟨middle, last, ⟨by decide, 4, ?_⟩, ⟨by decide, 3, ?_⟩, rfl, rfl⟩ <;>
      rw [Program.code, List.map_toArray] <;> rfl
  obtain ⟨hcompile, hfinished, _⟩ := ends_append_iff ha hb (by decide) 1 (by decide) [1]
  obtain ⟨final, hend, hstore, hsteps⟩ := (hfinished _ 4).mpr hinTurn
  exact ⟨_, final, hcompile, hend, by rw [hstore]; rfl, hsteps⟩

end TapeMachine
