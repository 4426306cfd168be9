import TapeMachine.Proofs.Machine.Frame
import TapeMachine.Proofs.Machine.InMemory

/-!
# Input that is not read

What a program does depends only on the part of its input that it has read. The main theorem,
`unread_irrelevant`, says so for inputs from a buffer: an execution that has left a part of its
input unread ends in the same way whatever stands in this place, and one that has come to the end
of its input goes through the same steps where there is more.

The proof runs the two machines side by side. `Console.Shares` relates two consoles that have the
same bytes in front of two different ends. They answer every call alike but a read with nothing in
front of the end, `next_shares`; such a read is refused, or it takes a byte of the end,
`Console.Fewer`, which is then never given back.
-/

namespace TapeMachine

namespace Console

/-- The console with this input left to read from a buffer. -/
def withInput (input : List UInt8) (console : Console) : Console :=
  { console with reader := .buffer input }

/-- The consoles differ only in what comes behind the same part of their inputs. -/
inductive Shares (tail tail' : List UInt8) : Console → Console → Prop where
  | mk (front : List UInt8) (console : Console) :
      Shares tail tail' (console.withInput (front ++ tail)) (console.withInput (front ++ tail'))

/-- The console has less than this number of bytes left to read from its buffer. -/
def Fewer (number : Nat) (console : Console) : Prop :=
  ∃ rest, console.reader = .buffer rest ∧ rest.length < number

variable {tail tail' rest : List UInt8} {console other after : Console} {number : Nat}

/-- A console that reads from a buffer has the input of the buffer. -/
theorem withInput_of_reader (h : console.reader = .buffer rest) :
    console.withInput rest = console := by
  unfold withInput
  rw [← h]

/-- A write does not look at the input, and leaves it as it is. -/
theorem writeByte_withInput (value : UInt8) (input : List UInt8) (console : Console) :
    (console.withInput input).writeByte value =
      Prod.map id (withInput input) (console.writeByte value) := by
  obtain ⟨reader, writer, delivered, events⟩ := console
  cases writer with
  | buffer => rfl
  | stream schedule writes flushes =>
      simp only [withInput, writeByte, tryFlush]
      cases schedule.write writes with
      | some fault => rfl
      | none =>
          by_cases hnewline : value = 0x0A
          · simp only [hnewline, if_true]
            cases schedule.flush flushes <;> rfl
          · simp only [hnewline, if_false]
            rfl

/-- Consoles that share their input answer every write alike. -/
theorem Shares.write (h : Shares tail tail' console other) :
    Command.write.CalledAlike (Shares tail tail') console other := by
  intro value
  obtain ⟨front, console⟩ := h
  rcases hwrite : console.writeByte value with ⟨result, after⟩
  refine ⟨result, after.withInput (front ++ tail), after.withInput (front ++ tail'), ?_, ?_,
    .mk front after⟩
  · show (console.withInput _).writeByte value = _
    rw [writeByte_withInput, hwrite]
    rfl
  · show (console.withInput _).writeByte value = _
    rw [writeByte_withInput, hwrite]
    rfl

/-- Consoles that share their input answer a read alike where there is a byte to share. -/
theorem Shares.read (h : Shares tail tail' console other) (hfront : console.reader ≠ .buffer tail) :
    Command.read.CalledAlike (Shares tail tail') console other := by
  obtain ⟨front, console⟩ := h
  cases front with
  | nil => exact absurd rfl hfront
  | cons value front => exact ⟨.ok value.toNat, _, _, rfl, rfl, .mk front console⟩

/-- Bytes that have been read are not given back. -/
theorem keeps_fewer (number : Nat) : Device.Keeps (Fewer number) := by
  constructor
  · intro console h
    obtain ⟨rest, hreader, hlt⟩ := h
    rw [← withInput_of_reader hreader]
    cases rest with
    | nil => exact ⟨[], rfl, hlt⟩
    | cons value rest => exact ⟨rest, rfl, Nat.lt_of_succ_lt hlt⟩
  · intro value console h
    obtain ⟨rest, hreader, hlt⟩ := h
    rw [← withInput_of_reader hreader]
    show Fewer number ((console.withInput rest).writeByte value).2
    rw [writeByte_withInput]
    exact ⟨rest, rfl, hlt⟩

/-- What has been delivered stays delivered. -/
theorem keeps_delivered (output : List UInt8) :
    Device.Keeps fun console : Console ↦ output <+: console.delivered.toList := by
  constructor
  · intro console h
    rcases hread : console.read with ⟨result, after⟩
    show output <+: console.read.2.delivered.toList
    rw [hread, (read_frame hread).1]
    exact h
  · intro value console h
    show output <+: (console.writeByte value).2.delivered.toList
    obtain ⟨-, hsame | hpushed⟩ := writeByte_frame value console
    · rw [hsame]
      exact h
    · rw [hpushed, Array.toList_push]
      exact h.trans (List.prefix_append _ _)

/-- A write is never refused for want of input. -/
theorem writeByte_ne_endOfInput (value : UInt8) (console : Console) :
    (console.writeByte value).1 ≠ .error .endOfInput := by
  have hofStream (fault : StreamFault) :
      ConsoleFault.ofStream .writeFailed fault ≠ .endOfInput := by
    cases fault <;> simp [ConsoleFault.ofStream]
  obtain ⟨reader, writer, delivered, events⟩ := console
  cases writer with
  | buffer => simp [writeByte]
  | stream schedule writes flushes =>
      simp only [writeByte, tryFlush]
      cases schedule.write writes with
      | some fault => simpa using hofStream fault
      | none =>
          by_cases hnewline : value = 0x0A
          · simp only [hnewline, if_true]
            cases schedule.flush flushes with
            | some fault => simpa using hofStream fault
            | none => simp
          · simp [hnewline]

end Console

namespace Machine

open Console

/-- The machine with this input left to read from a buffer. -/
def withInput (input : List UInt8) (machine : Machine Console) : Machine Console :=
  ⟨⟨machine.store.tape, machine.store.pointer, machine.store.device.withInput input⟩,
    machine.index, machine.steps⟩

variable {code : Code} {limit : Option Int} {tail tail' : List UInt8}
  {machine other following final : Machine Console} {outcome : Outcome ConsoleFault}

/-- A read that only the end of the input is left for finds no input, or takes a byte of the
end. -/
theorem next_of_starving (hreader : machine.store.device.reader = .buffer tail)
    (hfetch : code.fetch machine.index = .ok (.command .read)) :
    ∃ result following, machine.next code = (result, following) ∧
      (result = .error (.device .endOfInput) ∨ Fewer tail.length following.store.device) := by
  obtain ⟨⟨tape, pointer, device⟩, index, steps⟩ := machine
  have hinput : device.withInput tail = device := withInput_of_reader hreader
  cases tail with
  | nil =>
      have hread : Device.read device = (.error .endOfInput, device) := by
        rw [← hinput]
        rfl
      have hperform : Store.perform .read ⟨tape, pointer, device⟩ =
          (.error (.device .endOfInput), ⟨tape, pointer, device⟩) := by
        simp only [Store.perform, hread]
      exact ⟨_, _, next_of_obey_error hfetch (Store.obey_of_perform_error hperform index), .inl rfl⟩
  | cons value rest =>
      have hread : Device.read device = (.ok (value.toNat : Int), device.withInput rest) := by
        rw [← hinput]
        rfl
      have hfewer : Fewer (value :: rest).length (device.withInput rest) :=
        ⟨rest, rfl, Nat.lt_succ_self _⟩
      cases hcell : resolveIndex tape.size pointer with
      | error kind =>
          have hperform : Store.perform .read ⟨tape, pointer, device⟩ =
              (.error (.noCell kind), ⟨tape, pointer, device.withInput rest⟩) := by
            simp only [Store.perform, hread, hcell]
          exact ⟨_, _, next_of_obey_error hfetch (Store.obey_of_perform_error hperform index),
            .inr hfewer⟩
      | ok cell =>
          have hperform : Store.perform .read ⟨tape, pointer, device⟩ = (.ok (),
              ⟨tape.set cell (UInt8.ofInt value.toNat), pointer, device.withInput rest⟩) := by
            simp only [Store.perform, hread, hcell]
          exact ⟨_, _, next_of_obey_ok hfetch (Store.obey_of_perform_ok hperform index),
            .inr hfewer⟩

/-- Machines that share their input execute the next instruction alike, or it is a read for which
there is nothing in front of the end. Such a read finds no input, or takes a byte of the end. -/
theorem next_shares (h : Alongside (Store.Alike (Shares tail tail')) machine other)
    (code : Code) :
    (∃ result following following', machine.next code = (result, following) ∧
      other.next code = (result, following') ∧
      Alongside (Store.Alike (Shares tail tail')) following following') ∨
    ∃ result following, machine.next code = (result, following) ∧
      (result = .error (.device .endOfInput) ∨ Fewer tail.length following.store.device) := by
  by_cases hstarves : machine.store.device.reader = .buffer tail ∧
      code.fetch machine.index = .ok (.command .read)
  · right
    obtain ⟨hreader, hfetch⟩ := hstarves
    exact next_of_starving hreader hfetch
  · left
    obtain ⟨index, steps, halike⟩ := h
    refine next_alike steps (fun _ _ ↦ halike) ?_
    intro instruction hfetch
    refine Store.obey_alike ?_ (fun _ ↦ ⟨halike.current_eq, halike⟩) index
    intro c hc
    subst hc
    refine halike.perform ?_
    obtain ⟨tape, pointer, hshares⟩ := halike
    cases c with
    | add | move => trivial
    | write => exact hshares.write
    | read => exact hshares.read fun hreader ↦ hstarves ⟨hreader, hfetch⟩

/-- Machines that share their input both take a step that takes nothing of the end. -/
theorem step_shares (h : Alongside (Store.Alike (Shares tail tail')) machine other)
    (hstep : step? code machine = some following)
    (hleft : ¬ Fewer tail.length following.store.device) :
    ∃ following', step? code other = some following' ∧
      Alongside (Store.Alike (Shares tail tail')) following following' := by
  obtain ⟨-, hnext⟩ := step?_eq_some_iff.mp hstep
  obtain ⟨_, _, following', hnext', hother, hafter⟩ | ⟨_, _, hnext', hrefused | hfewer⟩ :=
    next_shares h code
  · cases hnext.symm.trans hnext'
    exact ⟨following', h.step?_eq hstep hother, hafter⟩
  · rw [hrefused] at hnext'
    cases hnext.symm.trans hnext'
  · cases hnext.symm.trans hnext'
    exact absurd hfewer hleft

/-- Machines that share their input run alike as long as nothing is taken of the end. -/
theorem run_shares {count : Nat}
    (h : Alongside (Store.Alike (Shares tail tail')) machine other)
    (hrun : run code count machine = some final)
    (hleft : ¬ Fewer tail.length final.store.device) :
    ∃ final', run code count other = some final' ∧
      Alongside (Store.Alike (Shares tail tail')) final final' := by
  induction count generalizing machine other with
  | zero =>
      cases hrun
      exact ⟨other, rfl, h⟩
  | succ count ih =>
      obtain ⟨following, hstep, hrun⟩ := exists_step_of_run hrun
      -- what is taken of the end by the first step is missing after the run as well
      have hleftFirst : ¬ Fewer tail.length following.store.device := by
        intro hfewer
        exact hleft (run_induction (P := fun machine ↦ Fewer tail.length machine.store.device)
          (fun hkept hnext ↦ (keeps_fewer tail.length).step? hkept hnext) hfewer hrun)
      obtain ⟨following', hstep', hafter⟩ := step_shares h hstep hleftFirst
      obtain ⟨final', hrun', hfinal⟩ := ih hafter hrun
      refine ⟨final', ?_, hfinal⟩
      rw [run_succ hstep', hrun']

/-- Where the first of two machines that share their input stops without looking for more of it, the
second one stops alike. -/
theorem stops_shares (h : Alongside (Store.Alike (Shares tail tail')) machine other)
    (hstop : Stops code limit machine outcome final)
    (hinput : outcome ≠ .faulted (.device .endOfInput))
    (hleft : ¬ Fewer tail.length final.store.device) :
    ∃ final', Stops code limit other outcome final' ∧
      Alongside (Store.Alike (Shares tail tail')) final final' := by
  refine h.stops hstop ?_
  intro fault hfault hnext
  obtain ⟨_, _, final', hnext', hother, hafter⟩ | ⟨_, _, hnext', hrefused | hfewer⟩ :=
    next_shares h code
  · cases hnext.symm.trans hnext'
    exact ⟨final', hother, hafter⟩
  · rw [hrefused] at hnext'
    cases hnext.symm.trans hnext'
    exact absurd hfault hinput
  · cases hnext.symm.trans hnext'
    exact absurd hfewer hleft

/-- Machines that share their input end alike, if the first one does so without looking for more of
it and has taken nothing of the end. -/
theorem ends_shares (h : Alongside (Store.Alike (Shares tail tail')) machine other)
    (hend : Ends code limit machine outcome final)
    (hinput : outcome ≠ .faulted (.device .endOfInput))
    (hleft : ¬ Fewer tail.length final.store.device) :
    ∃ final', Ends code limit other outcome final' ∧
      Alongside (Store.Alike (Shares tail tail')) final final' := by
  obtain ⟨count, last, hrun, hafford, hstop⟩ := ends_iff.mp hend
  have hleftLast : ¬ Fewer tail.length last.store.device :=
    fun hfewer ↦ hleft ((keeps_fewer tail.length).ends hfewer (hend.rest hrun hafford))
  obtain ⟨last', hrun', hlast⟩ := run_shares h hrun hleftLast
  obtain ⟨final', hstop', hfinal⟩ := stops_shares hlast hstop hinput hleft
  have hafford' : Affords limit other count := by
    cases h
    exact hafford
  exact ⟨final', ends_iff.mpr ⟨count, last', hrun', hafford', hstop'⟩, hfinal⟩

/-- A machine that shares its input with another is the same machine with another input. -/
theorem eq_withInput_of_shares (h : Alongside (Store.Alike (Shares tail tail')) machine other) :
    ∃ front, machine.store.device.reader = .buffer (front ++ tail) ∧
      other = machine.withInput (front ++ tail') := by
  obtain ⟨index, steps, tape, pointer, hshares⟩ := h
  obtain ⟨front, console⟩ := hshares
  exact ⟨front, rfl, rfl⟩

/-- The machine that starts on a tape with this input in a buffer. -/
def onInput (tape : Tape) (writer : Writer) (input : List UInt8) : Machine Console :=
  start tape (Console.start (.buffer input) writer)

/-- Machines that start on inputs with the same front share their input. -/
theorem shares_onInput (tape : Tape) (writer : Writer) (front tail tail' : List UInt8) :
    Alongside (Store.Alike (Shares tail tail')) (onInput tape writer (front ++ tail))
      (onInput tape writer (front ++ tail')) :=
  .mk 0 0 (.mk tape 0 (.mk front (Console.start (.buffer []) writer)))

/-- A read that finds no input delivers nothing. -/
theorem delivered_of_endOfInput (h : Fails code machine (.device .endOfInput) final) :
    final.store.device.delivered = machine.store.device.delivered := by
  have haborts := h.framed.aborts
  generalize final.store.device = after at haborts ⊢
  cases haborts with
  | refused hfetch hrefused =>
      cases hrefused with
      | write hcurrent hwrite =>
          exact absurd (congrArg Prod.fst hwrite) (writeByte_ne_endOfInput _ _)
      | read hread => exact (read_frame hread).1

variable {tape : Tape} {writer : Writer} {x y z : List UInt8} {c : Nat} {last : Machine Console}

/-- What stands behind the bytes that an execution reads makes no difference to it. -/
theorem ends_of_take_eq (hend : Ends code limit (onInput tape writer x) outcome final)
    (hinput : outcome ≠ .faulted (.device .endOfInput))
    (hreader : final.store.device.reader = .buffer (x.drop c)) (hfront : y.take c = x.take c) :
    Ends code limit (onInput tape writer y) outcome (final.withInput (y.drop c)) := by
  have hshares := shares_onInput tape writer (x.take c) (x.drop c) (y.drop c)
  rw [List.take_append_drop, ← hfront, List.take_append_drop] at hshares
  have hleft : ¬ Fewer (x.drop c).length final.store.device := by
    intro hfewer
    obtain ⟨rest, hrest, hlt⟩ := hfewer
    cases hreader.symm.trans hrest
    exact Nat.lt_irrefl _ hlt
  obtain ⟨final', hend', hfinal⟩ := ends_shares hshares hend hinput hleft
  obtain ⟨front, hreader', rfl⟩ := eq_withInput_of_shares hfinal
  have hnil : front = [] := by
    rw [hreader, Reader.buffer.injEq] at hreader'
    exact List.self_eq_append_left.mp hreader'
  rw [hnil, List.nil_append] at hend'
  exact hend'

/-- A run goes through the same machines where more input stands behind. -/
theorem run_append {count : Nat} (hrun : run code count (onInput tape writer x) = some final) :
    ∃ rest, final.store.device.reader = .buffer rest ∧
      run code count (onInput tape writer (x ++ z)) = some (final.withInput (rest ++ z)) := by
  have hshares := shares_onInput tape writer x [] z
  rw [List.append_nil] at hshares
  have hleft : ¬ Fewer ([] : List UInt8).length final.store.device := by
    intro hfewer
    obtain ⟨rest, -, hlt⟩ := hfewer
    exact Nat.not_lt_zero _ hlt
  obtain ⟨final', hrun', hfinal⟩ := run_shares hshares hrun hleft
  obtain ⟨front, hreader, rfl⟩ := eq_withInput_of_shares hfinal
  rw [List.append_nil] at hreader
  exact ⟨front, hreader, hrun'⟩

/-- What a machine has delivered stays delivered while it runs on. -/
theorem delivered_of_run {count : Nat} (hrun : run code count machine = some final) :
    machine.store.device.delivered.toList <+: final.store.device.delivered.toList :=
  run_induction
    (P := fun later ↦
      machine.store.device.delivered.toList <+: later.store.device.delivered.toList)
    (fun hkept hstep ↦ (keeps_delivered _).step? hkept hstep) (List.prefix_refl _) hrun

end Machine

open Machine

/-- Input that is not read has no influence.

Take any code, any tape and any writer, and start on an input from a buffer. If an execution ends
with all but the first `c` bytes left, and not for want of input, then on every other input with the
same first `c` bytes it ends in the same way, and with the same machine but for what is left to
read. If it ends for want of input after some steps, then on the input with more behind it the same
steps lead to the same machines, again but for what is left to read, and whatever comes later has in
front what had been delivered by then. -/
theorem unread_irrelevant (code : Code) (tape : Tape) (writer : Writer) :
    (∀ (limit : Option Int) (x y : List UInt8) (c : Nat) (outcome : Outcome ConsoleFault)
      (final : Machine Console), Ends code limit (onInput tape writer x) outcome final →
      outcome ≠ .faulted (.device .endOfInput) →
      final.store.device.reader = .buffer (x.drop c) → y.take c = x.take c →
      Ends code limit (onInput tape writer y) outcome (final.withInput (y.drop c))) ∧
    ∀ (limit : Option Int) (x z : List UInt8) (final : Machine Console),
      Ends code limit (onInput tape writer x) (.faulted (.device .endOfInput)) final →
      ∃ k : Nat, final.steps = k ∧
        (∀ count ≤ k, ∃ middle rest, run code count (onInput tape writer x) = some middle ∧
          middle.store.device.reader = .buffer rest ∧
          run code count (onInput tape writer (x ++ z)) = some (middle.withInput (rest ++ z))) ∧
        (∀ count later, k ≤ count →
          run code count (onInput tape writer (x ++ z)) = some later →
          final.store.device.delivered.toList <+: later.store.device.delivered.toList) ∧
        ∀ outcome last, Ends code limit (onInput tape writer (x ++ z)) outcome last →
          final.store.device.delivered.toList <+: last.store.device.delivered.toList := by
  refine ⟨fun limit x y c outcome final hend hinput hreader hfront ↦
    ends_of_take_eq hend hinput hreader hfront, ?_⟩
  intro limit x z final hend
  obtain ⟨k, middle, hrun, hafford, hstop⟩ := ends_iff.mp hend
  have hsteps : final.steps = k := by
    have hcount : middle.steps = 0 + k := steps_of_run hrun
    have hleft := hstop.steps_eq
    omega
  have hdelivered : final.store.device.delivered = middle.store.device.delivered := by
    cases hstop with
    | faulted hfails => exact delivered_of_endOfInput hfails
  obtain ⟨rest, -, hrun'⟩ := run_append hrun
  have hsame : final.store.device.delivered =
      (middle.withInput (rest ++ z)).store.device.delivered := hdelivered
  rw [hsame]
  refine ⟨k, hsteps, ?_, ?_, ?_⟩
  · intro count hle
    obtain ⟨earlier, hearlier⟩ := exists_run_of_le hle hrun
    obtain ⟨rest, hreader, hearlier'⟩ := run_append hearlier
    exact ⟨earlier, rest, hearlier, hreader, hearlier'⟩
  · intro count later hle hlater
    obtain ⟨more, rfl⟩ := Nat.exists_eq_add_of_le hle
    rw [run_add, hrun'] at hlater
    exact delivered_of_run hlater
  · intro outcome last hlast
    have hrest := hlast.rest hrun' hafford
    exact (Console.keeps_delivered _).ends (List.prefix_refl _) hrest

/-- An echo of two bytes has no use for a third, and goes on where it had to stop after one. -/
theorem unread_irrelevant_echo :
    let code : Code := #[.instruction (.command .read), .instruction (.command .write),
      .instruction (.command .read), .instruction (.command .write)]
    let tape := Tape.blank 1 (by decide)
    ∃ final stuck : Machine Console,
      Ends code none (onInput tape .buffer [65, 66, 1]) .finished final ∧
      Ends code none (onInput tape .buffer [65, 66, 2, 3]) .finished (final.withInput [2, 3]) ∧
      Ends code none (onInput tape .buffer [65]) (.faulted (.device .endOfInput)) stuck ∧
      stuck.store.device.delivered = #[65] ∧
      ∀ outcome last, Ends code none (onInput tape .buffer ([65] ++ [66])) outcome last →
        stuck.store.device.delivered.toList <+: last.store.device.delivered.toList := by
  intro code tape
  have hend : Ends code none (onInput tape .buffer [65, 66, 1]) .finished
      ((onInput tape .buffer [65, 66, 1]).execute code none 5).2 := ⟨by simp, 5, rfl⟩
  have hstuck : Ends code none (onInput tape .buffer [65]) (.faulted (.device .endOfInput))
      ((onInput tape .buffer [65]).execute code none 5).2 := ⟨by simp, 5, rfl⟩
  obtain ⟨hfirst, hsecond⟩ := unread_irrelevant code tape .buffer
  have hother := hfirst none [65, 66, 1] [65, 66, 2, 3] 2 .finished _ hend (by simp) rfl rfl
  obtain ⟨_, -, -, -, houtput⟩ := hsecond none [65] [66] _ hstuck
  exact ⟨_, _, hend, hother, hstuck, rfl, houtput⟩

end TapeMachine
