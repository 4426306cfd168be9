import TapeMachine.Proofs.Console.Trace
import TapeMachine.Proofs.Machine.Lockstep
import TapeMachine.Proofs.Machine.Safety

/-!
# Programs taken up again after a failure

A machine between streams fails where a stream call does, and it can be executed again from where it
stands. The main theorem, `visited_resumes`, says that nothing is lost by this: at every moment of
any number of executions the machine stands where one stands that has the same data to read and
whose streams never fail, after as many steps. The one condition is that no flush behind a newline
has failed, since such a newline has been delivered and is written once more.

The proof runs the two machines side by side. `Device.Follows` asks of the second device that it
goes along with every call in which the first succeeds; where the first fails, the second waits.
`Console.Retells` is the relation between the traces of the two consoles that is kept all the time.
-/

namespace TapeMachine

section Follows

variable {σ τ ε : Type} [Device σ ε] [Device τ ε]

/-- Every call in which the first device succeeds succeeds alike in the second, and leads to devices
that stand in the relation again. -/
structure Device.Follows (R : σ → τ → Prop) : Prop where
  read {device after : σ} {other : τ} {value : Int} (h : R device other)
    (hread : Device.read device = (.ok value, after)) :
    ∃ after', Device.read other = (.ok value, after') ∧ R after after'
  write {device after : σ} {other : τ} {value : UInt8} (h : R device other)
    (hwrite : Device.write value device = (.ok (), after)) :
    ∃ after', Device.write value other = (.ok (), after') ∧ R after after'

variable {R : σ → τ → Prop} {store left : Store σ} {other : Store τ}

/-- A command that is performed on the first store is performed on the second. -/
theorem Device.Follows.perform (hR : Device.Follows R) (h : Store.Alike R store other)
    {c : Command} (hperform : store.perform c = (.ok (), left)) :
    ∃ left', other.perform c = (.ok (), left') ∧ Store.Alike R left left' := by
  obtain ⟨tape, pointer, h⟩ := h
  cases c with
  | add delta =>
      simp only [Store.perform] at hperform ⊢
      split at hperform <;> cases hperform
      exact ⟨_, rfl, .mk _ _ h⟩
  | move delta =>
      cases hperform
      exact ⟨_, rfl, .mk _ _ h⟩
  | write =>
      simp only [Store.perform] at hperform ⊢
      split at hperform
      · cases hperform
      · split at hperform <;> cases hperform
        rename_i hwrite
        obtain ⟨after', hwrite', hafter⟩ := hR.write h hwrite
        rw [hwrite']
        exact ⟨_, rfl, .mk _ _ hafter⟩
  | read =>
      simp only [Store.perform] at hperform ⊢
      split at hperform
      · cases hperform
      · rename_i hread
        obtain ⟨after', hread', hafter⟩ := hR.read h hread
        rw [hread']
        split at hperform <;> cases hperform
        exact ⟨_, rfl, .mk _ _ hafter⟩

/-- An instruction that the first store obeys is obeyed by the second. -/
theorem Device.Follows.obey (hR : Device.Follows R) (h : Store.Alike R store other)
    {index target : Int} {instruction : Instruction}
    (hobey : store.obey index instruction = (.ok target, left)) :
    ∃ left', other.obey index instruction = (.ok target, left') ∧ Store.Alike R left left' := by
  cases instruction with
  | command c =>
      rcases hperform : store.perform c with ⟨_ | _, after⟩
      · simp [Store.obey, hperform] at hobey
      · simp only [Store.obey, hperform, Prod.mk.injEq, Except.ok.injEq] at hobey
        obtain ⟨rfl, rfl⟩ := hobey
        obtain ⟨left', hperform', halike⟩ := hR.perform h hperform
        exact ⟨left', Store.obey_of_perform_ok hperform' _, halike⟩
  | loopStart | loopEnd =>
      obtain ⟨tape, pointer, h⟩ := h
      simp only [Store.obey, Store.current] at hobey ⊢
      cases hcell : resolveIndex tape.size pointer with
      | error => simp [hcell] at hobey
      | ok cell =>
          simp only [hcell, Prod.mk.injEq] at hobey ⊢
          obtain ⟨htarget, rfl⟩ := hobey
          exact ⟨_, ⟨htarget, rfl⟩, .mk _ _ h⟩

/-- A machine whose device follows takes every step that the first machine takes. -/
theorem Device.Follows.step? (hR : Device.Follows R) {code : Code} {machine following : Machine σ}
    {other : Machine τ} (h : Machine.Alongside (Store.Alike R) machine other)
    (hstep : Machine.step? code machine = some following) :
    ∃ following', Machine.step? code other = some following' ∧
      Machine.Alongside (Store.Alike R) following following' := by
  obtain ⟨index, steps, h⟩ := h
  obtain ⟨hlt, hnext⟩ := Machine.step?_eq_some_iff.mp hstep
  obtain ⟨instruction, target, store, hfetch, hobey, rfl⟩ := Machine.next_eq_ok_iff.mp hnext
  obtain ⟨left', hobey', halike⟩ := hR.obey h hobey
  refine ⟨⟨left', target + 1, steps + 1⟩, ?_, .mk _ _ halike⟩
  exact Machine.step?_eq_some_iff.mpr
    ⟨hlt, Machine.next_eq_ok_iff.mpr ⟨_, _, _, hfetch, hobey', rfl⟩⟩

end Follows

open StreamEvent

/-- The byte that a read of this item receives. -/
def ScriptItem.byte? : ScriptItem → Option UInt8
  | byte value => some value
  | nothing | failure _ => none

/-- The bytes that the reads of a script receive, without those that fail or find no data. -/
def Script.data (script : Script) : List UInt8 :=
  script.filterMap ScriptItem.byte?

/-- The script whose reads receive these bytes and never fail before the end. -/
def Script.ofData (data : List UInt8) : Script :=
  data.map .byte

namespace Console

/-- The bytes received by the calls so far. -/
def received (console : Console) : List UInt8 :=
  console.events.toList.filterMap received?

/-- No flush behind a newline has failed. -/
def Unbroken (trace : List StreamEvent) : Prop :=
  ¬ [.wrote 0x0A, .flushFailed] <:+: trace

/-- Where no flush behind a newline has failed, none had before. -/
theorem Unbroken.left {trace chunk : List StreamEvent} (h : Unbroken (trace ++ chunk)) :
    Unbroken trace :=
  fun hbroken ↦ h (hbroken.trans (List.prefix_append trace chunk).isInfix)

/-- The second trace, of calls that never fail, has delivered and received what the first has, and
the rest of the input holds what has not been received yet. -/
structure Retells (input : Script) (trace other : List StreamEvent) : Prop where
  delivered : other.filterMap delivered? = trace.filterMap delivered?
  received : other.filterMap received? = trace.filterMap received?
  countP_isRead : other.countP isRead = (trace.filterMap received?).length
  rest : trace.filterMap received? ++ Script.data (input.drop (trace.countP isRead)) = input.data

variable {input : Script} {prompt : Bool} {schedule : Schedule}
  {trace other chunk : List StreamEvent}

/-- The next item of a script comes in front of the rest. -/
theorem data_drop (input : Script) (n : Nat) :
    Script.data (input.drop n) =
      Script.data input[n]?.toList ++ Script.data (input.drop (n + 1)) := by
  unfold Script.data
  rw [List.drop_eq_getElem?_toList_append, List.filterMap_append]

/-- The same calls can be made on both sides, if their reads receive what comes next. -/
theorem Retells.append (h : Retells input trace other)
    (hreads : chunk.countP isRead = (chunk.filterMap received?).length)
    (hrest : Script.data (input.drop (trace.countP isRead)) =
      chunk.filterMap received? ++ Script.data (input.drop ((trace ++ chunk).countP isRead))) :
    Retells input (trace ++ chunk) (other ++ chunk) := by
  constructor
  case delivered => rw [List.filterMap_append, List.filterMap_append, h.delivered]
  case received => rw [List.filterMap_append, List.filterMap_append, h.received]
  case countP_isRead =>
    rw [List.countP_append, h.countP_isRead, hreads, List.filterMap_append, List.length_append]
  case rest => rw [List.filterMap_append, List.append_assoc, ← hrest, h.rest]

/-- Calls that deliver and receive nothing need no other side, if they pass over no data. -/
theorem Retells.wait (h : Retells input trace other) (hdelivered : chunk.filterMap delivered? = [])
    (hreceived : chunk.filterMap received? = [])
    (hrest : Script.data (input.drop (trace.countP isRead)) =
      Script.data (input.drop ((trace ++ chunk).countP isRead))) :
    Retells input (trace ++ chunk) other := by
  constructor
  case delivered => rw [List.filterMap_append, hdelivered, List.append_nil, h.delivered]
  case received => rw [List.filterMap_append, hreceived, List.append_nil, h.received]
  case countP_isRead => rw [List.filterMap_append, hreceived, List.append_nil, h.countP_isRead]
  case rest => rw [List.filterMap_append, hreceived, List.append_nil, ← hrest, h.rest]

/-- The second side has the data of the rest of the input in front of it. -/
theorem Retells.drop_eq (h : Retells input trace other) :
    (Script.ofData input.data).drop (other.countP isRead) =
      Script.ofData (Script.data (input.drop (trace.countP isRead))) := by
  unfold Script.ofData
  rw [← List.map_drop, ← h.rest, h.countP_isRead, List.drop_left]

/-- What is to be read next is the same on both sides. -/
theorem Retells.getElem?_eq (h : Retells input trace other) {value : UInt8}
    (hitem : input[trace.countP isRead]? = some (.byte value)) :
    (Script.ofData input.data)[other.countP isRead]? = some (.byte value) := by
  rw [← List.head?_drop, h.drop_eq, data_drop, hitem]
  rfl

/-- The stream calls of a call that has been refused change nothing between the two sides, unless
they break a newline off from its flush. -/
theorem Retells.refused {fault : ConsoleFault} (h : Retells input trace other)
    (hrefusal : Refusal input prompt schedule trace chunk fault)
    (hunbroken : Unbroken (trace ++ chunk)) : Retells input (trace ++ chunk) other := by
  cases hrefusal with
  | write => exact h.wait rfl rfl (by simp [isRead])
  | newline => exact absurd (List.suffix_append trace _).isInfix hunbroken
  | prompt => exact h.wait rfl rfl (by simp [isRead])
  | read hitem =>
      refine h.wait (by cases prompt <;> rfl) (by cases prompt <;> rfl) ?_
      rw [data_drop, hitem, ← List.append_assoc, List.countP_append, countP_isRead_lead]
      rfl
  | endOfInput hitem =>
      refine h.wait (by cases prompt <;> rfl) (by cases prompt <;> rfl) ?_
      rw [data_drop, ← List.append_assoc, List.countP_append, countP_isRead_lead]
      cases hnext : input[trace.countP isRead]? with
      | none => rfl
      | some item =>
          rw [hitem item hnext]
          rfl

/-- A console and the console that has the same data to read and whose streams never fail, after
calls that the second trace retells. -/
inductive Retelling (input : Script) (prompt : Bool) (schedule : Schedule) :
    Console → Console → Prop where
  | mk {trace other : List StreamEvent} (h : Retells input trace other) :
      Retelling input prompt schedule (ofTrace input prompt schedule trace)
        (ofTrace (Script.ofData input.data) prompt .reliable other)

/-- A console is the console of one trace only. -/
theorem ofTrace_injective {trace trace' : List StreamEvent}
    (h : ofTrace input prompt schedule trace = ofTrace input prompt schedule trace') :
    trace = trace' :=
  congrArg (fun console ↦ console.events.toList) h

/-- A call that is refused leaves the console in the relation. -/
theorem Retelling.refused {fault : ConsoleFault} {console : Console}
    (h : Retelling input prompt schedule (ofTrace input prompt schedule trace) console)
    (hrefusal : Refusal input prompt schedule trace chunk fault)
    (hunbroken : Unbroken (trace ++ chunk)) :
    Retelling input prompt schedule (ofTrace input prompt schedule (trace ++ chunk)) console := by
  generalize hdevice : ofTrace input prompt schedule trace = device at h
  obtain ⟨h⟩ := h
  obtain rfl := ofTrace_injective hdevice
  exact .mk (h.refused hrefusal hunbroken)

/-- The console whose streams never fail goes along with every call that succeeds. -/
theorem follows_retelling :
    Device.Follows (Retelling input prompt schedule) := by
  constructor
  · rintro _ after _ value ⟨h⟩ hread
    rename_i trace other
    change (ofTrace input prompt schedule trace).read = (.ok value, after) at hread
    obtain ⟨byte, hitem, heq⟩ | ⟨_, _, _, heq⟩ := read_ofTrace input prompt schedule trace
    · cases heq.symm.trans hread
      refine ⟨_, read_of_byte (fun _ ↦ rfl) (h.getElem?_eq hitem), .mk (h.append ?_ ?_)⟩
      · cases prompt <;> rfl
      · rw [data_drop, hitem, ← List.append_assoc, List.countP_append, countP_isRead_lead]
        cases prompt <;> rfl
    · cases heq.symm.trans hread
  · rintro _ after _ value ⟨h⟩ hwrite
    rename_i trace other
    change (ofTrace input prompt schedule trace).writeByte value = (.ok (), after) at hwrite
    obtain heq | ⟨_, _, _, heq⟩ := write_ofTrace input prompt schedule trace value
    · cases heq.symm.trans hwrite
      refine ⟨_, write_of_none rfl (fun _ ↦ rfl), .mk (h.append ?_ ?_)⟩
      · unfold sent
        split <;> rfl
      · unfold sent
        split <;> simp [isRead, received?]
    · cases heq.symm.trans hwrite

end Console

namespace Machine

/-- Unless a newline has been broken off from its flush, some run from `free` leads to a machine
that stands alongside and whose streams never fail. -/
def Mirrored (code : Code) (free : Machine Console) (input : Script) (prompt : Bool)
    (schedule : Schedule) (machine : Machine Console) : Prop :=
  ∃ trace, machine.store.device = Console.ofTrace input prompt schedule trace ∧
    (Console.Unbroken trace → ∃ count clean, run code count free = some clean ∧
      Alongside (Store.Alike (Console.Retelling input prompt schedule)) machine clean)

variable {code : Code} {free machine following final : Machine Console} {input : Script}
  {prompt : Bool} {schedule : Schedule} {size : Nat} {size_pos : 0 < size}

/-- Both machines take a step where the first one does. -/
theorem Mirrored.step (h : Mirrored code free input prompt schedule machine)
    (hstep : step? code machine = some following) :
    Mirrored code free input prompt schedule following := by
  obtain ⟨trace, hdevice, hclean⟩ := h
  have hfollow : Console.Unbroken trace → ∃ count clean, run code count free = some clean ∧
      Alongside (Store.Alike (Console.Retelling input prompt schedule)) following clean := by
    intro hunbroken
    obtain ⟨count, clean, hrun, halong⟩ := hclean hunbroken
    obtain ⟨clean', hstep', halong'⟩ := Console.follows_retelling.step? halong hstep
    exact ⟨count + 1, clean', run_trans hrun (run_succ hstep' 0), halong'⟩
  have hyields := yields_of_step? hstep
  rw [hdevice] at hyields
  obtain heq | ⟨chunk, _, heq⟩ := Console.exists_exchange hyields
  · exact ⟨trace, heq, hfollow⟩
  · exact ⟨trace ++ chunk, heq, fun hunbroken ↦ hfollow hunbroken.left⟩

/-- The second machine waits where the first one fails. -/
theorem Mirrored.fails {fault : Fault ConsoleFault}
    (h : Mirrored code free input prompt schedule machine) (hbounds : machine.store.InBounds size)
    (hfails : Fails code machine fault final) :
    Mirrored code free input prompt schedule final := by
  obtain ⟨_, _, _, rfl⟩ | ⟨instruction, left, _, hobey, rfl⟩ := next_eq_error_iff.mp hfails.2
  · exact h
  · obtain ⟨c, refusal, rfl, rfl, hrefused⟩ := hbounds.refused_of_obey hobey
    obtain ⟨trace, hdevice, hclean⟩ := h
    rw [hdevice] at hrefused
    obtain ⟨chunk, hrefusal, hafter⟩ := Console.exists_refusal hrefused
    refine ⟨trace ++ chunk, hafter, fun hunbroken ↦ ?_⟩
    obtain ⟨count, clean, hrun, halong⟩ := hclean hunbroken.left
    refine ⟨count, clean, hrun, ?_⟩
    obtain ⟨index, steps, tape, pointer, hretelling⟩ := halong
    obtain rfl := hdevice
    rw [Store.obey_error hobey, hafter]
    exact .mk _ _ (.mk _ _ (hretelling.refused hrefusal hunbroken))

/-- Every machine that is visited is mirrored. -/
theorem Visited.mirrored
    (h : Visited code (onStreams size size_pos input prompt schedule) machine) :
    Mirrored code (onStreams size size_pos (.ofData input.data) prompt .reliable) input prompt
      schedule machine := by
  refine (h.induction (P := fun machine ↦ machine.store.InBounds size ∧
    Mirrored code (onStreams size size_pos (.ofData input.data) prompt .reliable) input prompt
      schedule machine) ?_ ?_ ?_).2
  · intro machine following hboth hstep
    exact ⟨inBounds_of_step? hboth.1 hstep, hboth.2.step hstep⟩
  · intro machine final fault hboth hfails
    exact ⟨hfails.inBounds hboth.1, hboth.2.fails hboth.1 hfails⟩
  · have hinitial : Visited code (onStreams size size_pos input prompt schedule) _ := .initial
    have hretells : Console.Retells input [] [] := ⟨rfl, rfl, rfl, rfl⟩
    refine ⟨hinitial.inBounds, [], Console.start_eq_ofTrace, fun _ ↦ ⟨0, _, rfl, ?_⟩⟩
    exact .mk _ _ (.mk _ _ (Console.Retelling.mk hretells))

/-- Failures of streams are invisible to a program that is taken up again after each of them.

At every moment of any number of executions between streams, whichever of their calls fail, the
machine stands where one stands that started on the same data without failures and empty reads,
whose output never fails, and that has taken as many steps. Both have delivered the same, both have
received the same, and what either has left to read is the rest of the data. The machine without
failures has finished where the other one has. -/
theorem visited_resumes
    (h : Visited code (onStreams size size_pos input prompt schedule) machine)
    (hunbroken : Console.Unbroken machine.store.device.events.toList) :
    ∃ (count : Nat) (clean : Machine Console),
      run code count (onStreams size size_pos (.ofData input.data) prompt .reliable) =
        some clean ∧
      machine.steps = count ∧ clean.steps = count ∧
      clean.store.tape = machine.store.tape ∧ clean.store.pointer = machine.store.pointer ∧
      clean.index = machine.index ∧
      clean.store.device.delivered = machine.store.device.delivered ∧
      clean.store.device.received = machine.store.device.received ∧
      (∃ rest : Script, machine.store.device.reader = .stream rest prompt ∧
        clean.store.device.reader = .stream (.ofData rest.data) prompt ∧
        machine.store.device.received ++ rest.data = input.data) ∧
      (Finished code machine →
        Ends code none (onStreams size size_pos (.ofData input.data) prompt .reliable)
          .finished clean) := by
  obtain ⟨trace, hdevice, hclean⟩ := h.mirrored
  rw [hdevice] at hunbroken
  obtain ⟨count, clean, hrun, halong⟩ := hclean hunbroken
  have hsteps := steps_of_run hrun
  refine ⟨count, clean, hrun, ?_⟩
  obtain ⟨index, steps, tape, pointer, hretelling⟩ := halong
  obtain ⟨hretells⟩ := hretelling
  have hcount : steps = count := hsteps.trans (Int.zero_add _)
  refine ⟨hcount, hcount, rfl, rfl, rfl, ?_, hretells.received, ?_, fun hfinished ↦ ?_⟩
  · exact congrArg List.toArray hretells.delivered
  · exact ⟨_, rfl, congrArg (Reader.stream · prompt) hretells.drop_eq, hretells.rest⟩
  · exact ends_iff.mpr ⟨count, _, hrun, nofun, .finished hfinished⟩

/-- A byte is echoed between streams that fail four times on the way. -/
theorem visited_resumes_echo :
    let code : Code := #[.instruction (.command .read), .instruction (.command .write)]
    let input : Script := [.failure (.system "gone"), .nothing, .byte 0x0A]
    let schedule := (Schedule.reliable.add .write 0 (.system "full")).add .flush 1 (.invalid "busy")
    ∃ machine clean : Machine Console,
      Visited code (onStreams 1 (by decide) input true schedule) machine ∧
      Console.Unbroken machine.store.device.events.toList ∧
      machine.store.device.events.toList.countP isFailure = 4 ∧
      Ends code none (onStreams 1 (by decide) (.ofData [0x0A]) true .reliable) .finished clean ∧
      clean.store.tape = machine.store.tape ∧
      clean.store.device.delivered = machine.store.device.delivered := by
  intro code input schedule
  let again (machine : Machine Console) : Machine Console := (machine.execute code none 3).2
  let machine := again (again (again (again (again (onStreams 1 (by decide) input true schedule)))))
  have hvisited : Visited code (onStreams 1 (by decide) input true schedule) machine :=
    ((((Visited.initial.again none 3).again none 3).again none 3).again none 3).again none 3
  have hunbroken : Console.Unbroken machine.store.device.events.toList := by
    show ¬ _ <:+: _
    decide
  have hfinished : Finished code machine := by
    show (2 : Int) ≤ 2
    decide
  obtain ⟨count, clean, _, _, _, htape, _, _, hdelivered, _, _, hends⟩ :=
    visited_resumes hvisited hunbroken
  exact ⟨machine, clean, hvisited, hunbroken, rfl, hends hfinished, htape, hdelivered⟩

end Machine

end TapeMachine
