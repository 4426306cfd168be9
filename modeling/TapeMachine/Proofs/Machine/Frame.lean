import TapeMachine.Proofs.Machine.Resumption

/-!
# What a failing instruction leaves alone

An instruction that fails has changed neither the program counter, the step count, the head nor a
cell of the tape. `Machine.Fails.framed` says so for any device, together with the calls that the
device has had by then, `Machine.Aborts`.

On a console a failure shows in two ways only: a newline is delivered although the flush behind it
fails, and a read takes a value that there is no cell for. `Aborts.delivered` and `Aborts.unread`
say that there is no other way.

The main theorem, `ends_faulted_frame`, is about every execution that fails, of any code and from
any machine.
-/

namespace TapeMachine

/-- Exactly the integers outside `-length ≤ i < length` address nothing. -/
theorem exists_resolveIndex_error_iff {length : Nat} {i : Int} :
    (∃ kind, resolveIndex length i = .error kind) ↔ i < -length ∨ length ≤ i := by
  constructor
  · intro h
    obtain ⟨kind, hkind⟩ := h
    by_cases hneg : i < 0
    · by_cases hle : -length ≤ i
      · rw [resolveIndex_of_neg hneg hle] at hkind
        cases hkind
      · exact .inl (Int.not_le.mp hle)
    · by_cases hlt : i < length
      · rw [resolveIndex_of_lt (Int.not_lt.mp hneg) hlt] at hkind
        cases hkind
      · exact .inr (Int.not_lt.mp hlt)
  · intro houtside
    have hfront : ¬ (0 ≤ (if i < 0 then i + length else i) ∧
        (if i < 0 then i + length else i) < length) := by
      split <;> omega
    unfold resolveIndex
    simp only [hfront]
    by_cases hword : fitsWord i
    · exact ⟨.outOfRange, by simp [hword]⟩
    · exact ⟨.unrepresentable, by simp [hword]⟩

/-! ## Consoles that refuse a call -/

/-- The values that the reads of a reader can still give, in order. -/
def Reader.unread : Reader → List Int
  | buffer rest => rest.map fun value ↦ value.toNat
  | values rest => rest
  | stream script _ => script.data.map fun value ↦ value.toNat

namespace Console

/-- A write of this byte delivers it and fails all the same: it is a newline, and the flush behind
it fails. -/
def BreaksNewline (value : UInt8) (console : Console) : Prop :=
  value = 0x0A ∧ ∃ schedule writes flushes fault, console.writer = .stream schedule writes flushes ∧
    schedule.write writes = none ∧ schedule.flush flushes = some fault

variable {console left : Console} {fault : ConsoleFault}

/-- Trying to flush concerns the writer and the trace only. -/
theorem tryFlush_frame (console : Console) :
    console.tryFlush.2.reader = console.reader ∧
      console.tryFlush.2.delivered = console.delivered := by
  obtain ⟨reader, writer, delivered, events⟩ := console
  cases writer with
  | buffer => exact ⟨rfl, rfl⟩
  | stream schedule writes flushes =>
      simp only [tryFlush]
      cases schedule.flush flushes <;> exact ⟨rfl, rfl⟩

/-- Flushing the writer concerns the writer and the trace only. -/
theorem flush_frame (console : Console) :
    console.flush.2.reader = console.reader ∧ console.flush.2.delivered = console.delivered := by
  have htry := console.tryFlush_frame
  unfold flush
  rcases hflush : console.tryFlush with ⟨_ | _, after⟩ <;> simpa [hflush] using htry

/-- A write does not touch the reader, and delivers its byte or nothing. -/
theorem writeByte_frame (value : UInt8) (console : Console) :
    (console.writeByte value).2.reader = console.reader ∧
      ((console.writeByte value).2.delivered = console.delivered ∨
        (console.writeByte value).2.delivered = console.delivered.push value) := by
  obtain ⟨reader, writer, delivered, events⟩ := console
  cases writer with
  | buffer => exact ⟨rfl, .inr rfl⟩
  | stream schedule writes flushes =>
      simp only [writeByte, tryFlush]
      cases schedule.write writes with
      | some failure => exact ⟨rfl, .inl rfl⟩
      | none =>
          by_cases hnewline : value = 0x0A
          · rw [if_pos hnewline]
            cases schedule.flush flushes <;> exact ⟨rfl, .inr rfl⟩
          · rw [if_neg hnewline]
            exact ⟨rfl, .inr rfl⟩

/-- A write that fails has not touched the reader, and has delivered nothing but a newline that
could not be flushed. -/
theorem writeByte_error {byte : UInt8} (h : console.writeByte byte = (.error fault, left)) :
    left.reader = console.reader ∧
      (console.BreaksNewline byte ∧ left.delivered = console.delivered.push 0x0A ∨
        ¬ console.BreaksNewline byte ∧ left.delivered = console.delivered) := by
  obtain ⟨reader, writer, delivered, events⟩ := console
  cases writer with
  | buffer => cases h
  | stream schedule writes flushes =>
      simp only [writeByte] at h
      cases hwrite : schedule.write writes with
      | some failure =>
          rw [hwrite] at h
          cases h
          refine ⟨rfl, .inr ⟨?_, rfl⟩⟩
          intro hbreaks
          obtain ⟨_, _, _, _, _, hwriter, hnone, _⟩ := hbreaks
          cases hwriter
          cases hwrite.symm.trans hnone
      | none =>
          simp only [hwrite] at h
          split at h
          · rename_i hnewline
            simp only [tryFlush] at h
            cases hflush : schedule.flush flushes with
            | none => simp [hflush] at h
            | some failure =>
                simp only [hflush] at h
                cases h
                rw [hnewline]
                exact ⟨rfl, .inl ⟨⟨rfl, _, _, _, failure, rfl, hwrite, hflush⟩, rfl⟩⟩
          · cases h

/-- The value that a read has given. -/
def given : Except ConsoleFault Int → List Int
  | .ok value => [value]
  | .error _ => []

/-- Taking the next item of a script delivers nothing, and takes no more data than it gives. -/
theorem readScript_frame (script : Script) (prompt : Bool) (console : Console) :
    (console.readScript script prompt).2.delivered = console.delivered ∧
      (Reader.stream script prompt).unread = given (console.readScript script prompt).1 ++
        (console.readScript script prompt).2.reader.unread := by
  obtain ⟨reader, writer, delivered, events⟩ := console
  rcases script with _ | ⟨_ | _ | _, rest⟩ <;> exact ⟨rfl, rfl⟩

/-- A read delivers nothing, and takes no more data than it gives. -/
theorem read_frame {result : Except ConsoleFault Int} (h : console.read = (result, left)) :
    left.delivered = console.delivered ∧
      console.reader.unread = given result ++ left.reader.unread := by
  obtain ⟨rfl, rfl⟩ : console.read.1 = result ∧ console.read.2 = left := by
    rw [h]
    exact ⟨rfl, rfl⟩
  clear h
  obtain ⟨reader, writer, delivered, events⟩ := console
  cases reader with
  | buffer rest | values rest => cases rest <;> exact ⟨rfl, rfl⟩
  | stream script prompt =>
      cases prompt with
      | false => exact readScript_frame script false _
      | true =>
          have hframe := flush_frame ⟨.stream script true, writer, delivered, events⟩
          simp only [read]
          rcases hflush : flush ⟨.stream script true, writer, delivered, events⟩ with ⟨_ | _, after⟩
          · rw [hflush] at hframe
            exact ⟨hframe.2, congrArg Reader.unread hframe.1.symm⟩
          · rw [hflush] at hframe
            obtain ⟨hdelivered, hunread⟩ := after.readScript_frame script true
            exact ⟨hdelivered.trans hframe.2, hunread⟩

end Console

namespace Machine

section Devices

variable {σ ε : Type} [Device σ ε] {code : Code} {limit : Option Int} {machine final : Machine σ}
  {fault : Fault ε}

/-- Why a machine fails, and the device that is left then: there is nothing to fetch and the device
has had no call, or the store refuses the instruction. -/
inductive Aborts (code : Code) (machine : Machine σ) : Fault ε → σ → Prop where
  | fetch {kind : FetchFault} (hfetch : code.fetch machine.index = .error kind) :
      Aborts code machine (.fetch kind) machine.store.device
  | refused {instruction : Instruction} {fault : Fault ε} {after : σ}
      (hfetch : code.fetch machine.index = .ok instruction)
      (hrefused : machine.store.Refused instruction fault after) : Aborts code machine fault after

/-- What a machine that fails leaves as it was, and what its device has been through. -/
structure Framed (code : Code) (machine : Machine σ) (fault : Fault ε) (final : Machine σ) :
    Prop where
  index_eq : final.index = machine.index
  steps_eq : final.steps = machine.steps
  pointer_eq : final.store.pointer = machine.store.pointer
  tape_eq : final.store.tape = machine.store.tape
  aborts : Aborts code machine fault final.store.device

/-- A machine that fails changes its device at most. -/
theorem Fails.framed (h : Fails code machine fault final) : Framed code machine fault final := by
  obtain ⟨kind, hfetch, rfl, rfl⟩ | ⟨instruction, left, hfetch, hobey, rfl⟩ :=
    next_eq_error_iff.mp h.2
  · exact ⟨rfl, rfl, rfl, rfl, .fetch hfetch⟩
  · have hleft := Store.obey_error hobey
    refine ⟨rfl, rfl, ?_, ?_, .refused hfetch (Store.refused_of_obey hobey)⟩
    · show left.pointer = machine.store.pointer
      rw [hleft]
    · show left.tape = machine.store.tape
      rw [hleft]

/-- An execution that fails has come to a machine that fails. -/
theorem exists_fails_of_ends (h : Ends code limit machine (.faulted fault) final) :
    ∃ count last, run code count machine = some last ∧ Fails code last fault final := by
  obtain ⟨count, last, hrun, -, hstop⟩ := ends_iff.mp h
  cases hstop with
  | faulted hfails => exact ⟨count, last, hrun, hfails⟩

end Devices

variable {code : Code} {machine : Machine Console} {after : Console} {fault : Fault ConsoleFault}

/-- The next instruction writes a newline that is delivered and cannot be flushed. -/
def BreaksNewline (code : Code) (machine : Machine Console) : Prop :=
  code.fetch machine.index = .ok (.command .write) ∧
    ∃ byte, (machine.store.current : Except (Fault ConsoleFault) UInt8) = .ok byte ∧
      machine.store.device.BreaksNewline byte

/-- The next instruction reads this value and has no cell to put it in. -/
def LosesInput (code : Code) (machine : Machine Console) (value : Int) : Prop :=
  code.fetch machine.index = .ok (.command .read) ∧
    (machine.store.pointer < -machine.store.tape.size ∨
      machine.store.tape.size ≤ machine.store.pointer) ∧
    machine.store.device.read.1 = .ok value

/-- Where an instruction fails, a newline that cannot be flushed has been delivered, and nothing
else. -/
theorem Aborts.delivered (h : Aborts code machine fault after) :
    BreaksNewline code machine ∧ after.delivered = machine.store.device.delivered.push 0x0A ∨
      ¬ BreaksNewline code machine ∧ after.delivered = machine.store.device.delivered := by
  cases h with
  | fetch hfetch =>
      refine .inr ⟨?_, rfl⟩
      intro hbreaks
      cases hfetch.symm.trans hbreaks.1
  | refused hfetch hrefused =>
      cases hrefused with
      | noCell _ hcell =>
          refine .inr ⟨?_, rfl⟩
          intro hbreaks
          obtain ⟨-, byte, hcurrent, -⟩ := hbreaks
          simp [Store.current, hcell] at hcurrent
      | write hcurrent hwrite =>
          obtain ⟨-, ⟨hbreaks, hpushed⟩ | ⟨hkeeps, hsame⟩⟩ := Console.writeByte_error hwrite
          · exact .inl ⟨⟨hfetch, _, hcurrent, hbreaks⟩, hpushed⟩
          · refine .inr ⟨?_, hsame⟩
            intro hbreaks
            obtain ⟨-, byte, hbyte, hbreaks⟩ := hbreaks
            cases hcurrent.symm.trans hbyte
            exact hkeeps hbreaks
      | read hread | lost hread _ =>
          refine .inr ⟨?_, ?_⟩
          · intro hbreaks
            cases hfetch.symm.trans hbreaks.1
          · exact (Console.read_frame hread).1

/-- Where an instruction fails, a value that has no cell to be put in has been read, and nothing
else. -/
theorem Aborts.unread (h : Aborts code machine fault after) :
    (∃ value, LosesInput code machine value ∧
        machine.store.device.reader.unread = value :: after.reader.unread) ∨
      (∀ value, ¬ LosesInput code machine value) ∧
        after.reader.unread = machine.store.device.reader.unread := by
  cases h with
  | fetch hfetch =>
      refine .inr ⟨?_, rfl⟩
      intro value hloses
      cases hfetch.symm.trans hloses.1
  | refused hfetch hrefused =>
      cases hrefused with
      | noCell hread _ =>
          refine .inr ⟨?_, rfl⟩
          intro value hloses
          cases hfetch.symm.trans hloses.1
          exact hread rfl
      | write hcurrent hwrite =>
          obtain ⟨hreader, -⟩ := Console.writeByte_error hwrite
          refine .inr ⟨?_, congrArg Reader.unread hreader⟩
          intro value hloses
          cases hfetch.symm.trans hloses.1
      | @read refusal _ hread =>
          refine .inr ⟨?_, (Console.read_frame hread).2.symm⟩
          intro value hloses
          have hresult : machine.store.device.read.1 = .error refusal := congrArg Prod.fst hread
          cases hresult.symm.trans hloses.2.2
      | lost hread hcell =>
          have houtside := exists_resolveIndex_error_iff.mp ⟨_, hcell⟩
          exact .inl ⟨_, ⟨hfetch, houtside, congrArg Prod.fst hread⟩, (Console.read_frame hread).2⟩

end Machine

/-- An execution that fails has changed nothing that the failing instruction should not change.

This holds of any code, foreign words and arbitrary targets included, and from any machine, wherever
its program counter, its head and its step count stand. Behind the instructions that have succeeded,
the failing one leaves the program counter on itself, and the step count, the head and every cell as
they were. Its device has had no call, or the one that it refused, or a read that succeeded although
there is no cell to put the value in.

On a console, what has been delivered is as before: always where the output is collected in memory,
and on a stream unless the instruction has written a newline whose flush fails, which is delivered
then. What can still be read is as before, unless the instruction is a read with its head off the
tape whose value has been taken. -/
theorem ends_faulted_frame {code : Code} {limit : Option Int} :
    (∀ (σ ε : Type) [Device σ ε] (machine final : Machine σ) (fault : Fault ε),
      Machine.Ends code limit machine (.faulted fault) final →
      ∃ count last, Machine.run code count machine = some last ∧
        Machine.Fails code last fault final ∧ Machine.Framed code last fault final) ∧
    ∀ (machine final : Machine Console) (fault : Fault ConsoleFault),
      Machine.Ends code limit machine (.faulted fault) final →
      ∃ count last, Machine.run code count machine = some last ∧
        Machine.Fails code last fault final ∧ Machine.Framed code last fault final ∧
        (last.store.device.writer = .buffer →
          final.store.device.delivered = last.store.device.delivered) ∧
        (last.BreaksNewline code ∧
            final.store.device.delivered = last.store.device.delivered.push 0x0A ∨
          ¬ last.BreaksNewline code ∧
            final.store.device.delivered = last.store.device.delivered) ∧
        ((∃ value, last.LosesInput code value ∧
            last.store.device.reader.unread = value :: final.store.device.reader.unread) ∨
          (∀ value, ¬ last.LosesInput code value) ∧
            final.store.device.reader.unread = last.store.device.reader.unread) := by
  constructor
  · intro σ ε _ machine final fault hend
    obtain ⟨count, last, hrun, hfails⟩ := Machine.exists_fails_of_ends hend
    exact ⟨count, last, hrun, hfails, hfails.framed⟩
  · intro machine final fault hend
    obtain ⟨count, last, hrun, hfails⟩ := Machine.exists_fails_of_ends hend
    have hframed := hfails.framed
    refine ⟨count, last, hrun, hfails, hframed, ?_, hframed.aborts.delivered,
      hframed.aborts.unread⟩
    intro hbuffer
    obtain ⟨⟨_, byte, _, _, _, _, _, _, hstream, _⟩, _⟩ | ⟨_, hsame⟩ := hframed.aborts.delivered
    · cases hbuffer.symm.trans hstream
    · exact hsame

/-- A newline whose flush fails is delivered, and the program counter stays on the write. -/
theorem ends_faulted_frame_newline :
    let schedule := Schedule.reliable.add .flush 0 (.system "Broken pipe")
    let machine := Machine.start (Tape.blank 1 (by decide))
      (Console.start (.buffer [7]) (.stream schedule 0 0))
    let code : Code := #[.instruction (.command (.add 10)), .instruction (.command .write)]
    ∃ last final, Machine.Ends code none machine
        (.faulted (.device (.writeFailed "Broken pipe"))) final ∧
      Machine.run code 1 machine = some last ∧ last.BreaksNewline code ∧
      final.store.device.delivered = last.store.device.delivered.push 0x0A ∧
      final.index = last.index ∧ final.store.tape = last.store.tape := by
  intro schedule machine code
  let final : Machine Console := ⟨⟨⟨#[10], by decide⟩, 0,
    ⟨.buffer [7], .stream schedule 1 1, #[10], #[.wrote 10, .flushFailed]⟩⟩, 1, 1⟩
  have hend : Machine.Ends code none machine
      (.faulted (.device (.writeFailed "Broken pipe"))) final := ⟨nofun, 3, rfl⟩
  obtain ⟨count, last, hrun, -, hframed, -, hdelivered, -⟩ :=
    ends_faulted_frame.2 machine final _ hend
  obtain rfl : count = 1 := by
    have hcount : last.steps = 0 + count := Machine.steps_of_run hrun
    have hsteps : (1 : Int) = last.steps := hframed.steps_eq
    omega
  obtain ⟨hbreaks, hpushed⟩ | ⟨-, hsame⟩ := hdelivered
  · exact ⟨last, final, hend, hrun, hbreaks, hpushed, hframed.index_eq, hframed.tape_eq⟩
  · -- one instruction has run, and it has delivered nothing
    cases hrun
    cases hsame

end TapeMachine
