import TapeMachine.Console
import TapeMachine.Proofs.Store

/-!
# Consoles and their traces

A console between streams is determined by its trace: how many writes and flushes have been tried,
how far the input has been read, and what has been delivered can all be told from the stream calls
made so far. `Console.ofTrace` is the console that a trace leads to, and every call leads from it to
the console of a longer trace.

What a call adds to the trace is an `Exchange` where it succeeds and a `Refusal` where it does not.
`write_ofTrace` and `read_ofTrace` say so for all calls, and later proofs take a trace apart through
these two relations.
-/

namespace TapeMachine

namespace StreamEvent

/-- The call was a write. -/
def isWrite : StreamEvent → Bool
  | wrote _ | writeFailed _ => true
  | flushed | flushFailed | readByte _ | readNothing | readFailed => false

/-- The call was a flush. -/
def isFlush : StreamEvent → Bool
  | flushed | flushFailed => true
  | wrote _ | writeFailed _ | readByte _ | readNothing | readFailed => false

/-- The call was a read. -/
def isRead : StreamEvent → Bool
  | readByte _ | readNothing | readFailed => true
  | wrote _ | writeFailed _ | flushed | flushFailed => false

/-- The call failed, or it was a read that found no data. -/
def isFailure : StreamEvent → Bool
  | writeFailed _ | flushFailed | readNothing | readFailed => true
  | wrote _ | flushed | readByte _ => false

/-- The byte that the call delivered. -/
def delivered? : StreamEvent → Option UInt8
  | wrote value => some value
  | writeFailed _ | flushed | flushFailed | readByte _ | readNothing | readFailed => none

/-- The byte that the call received. -/
def received? : StreamEvent → Option UInt8
  | readByte value => some value
  | wrote _ | writeFailed _ | flushed | flushFailed | readNothing | readFailed => none

end StreamEvent

open StreamEvent

namespace Console

variable (input : Script) (prompt : Bool) (schedule : Schedule)

/-- The console that these stream calls lead to. -/
def ofTrace (trace : List StreamEvent) : Console :=
  ⟨.stream (input.drop (trace.countP isRead)) prompt,
    .stream schedule (trace.countP isWrite) (trace.countP isFlush),
    (trace.filterMap delivered?).toArray, trace.toArray⟩

/-- The flush in front of a read, where there is one. -/
def lead : List StreamEvent :=
  if prompt then [.flushed] else []

/-- The stream calls of a write that succeeds. -/
def sent (value : UInt8) : List StreamEvent :=
  if value = 0x0A then [.wrote 0x0A, .flushed] else [.wrote value]

/-- The stream calls of a call of the console that succeeds. -/
inductive Exchange : List StreamEvent → Prop where
  | write (value : UInt8) : Exchange (sent value)
  | read (value : UInt8) : Exchange (lead prompt ++ [.readByte value])

/-- The stream calls of a call of the console that fails after this trace, and its fault. -/
inductive Refusal (trace : List StreamEvent) : List StreamEvent → ConsoleFault → Prop where
  | write (value : UInt8) {fault : StreamFault}
      (h : schedule.write (trace.countP isWrite) = some fault) :
      Refusal trace [.writeFailed value] (.ofStream .writeFailed fault)
  | newline {fault : StreamFault} (h : schedule.flush (trace.countP isFlush) = some fault) :
      Refusal trace [.wrote 0x0A, .flushFailed] (.ofStream .writeFailed fault)
  | prompt {fault : StreamFault} (hprompt : prompt = true)
      (h : schedule.flush (trace.countP isFlush) = some fault) :
      Refusal trace [.flushFailed] (.ofStream .flushFailed fault)
  | read {fault : StreamFault} (h : input[trace.countP isRead]? = some (.failure fault)) :
      Refusal trace (lead prompt ++ [.readFailed]) (.ofStream .readFailed fault)
  | endOfInput (h : ∀ item, input[trace.countP isRead]? = some item → item = .nothing) :
      Refusal trace (lead prompt ++ [.readNothing]) .endOfInput

variable {input : Script} {prompt : Bool} {schedule : Schedule} {trace : List StreamEvent}

/-- Before any call the trace is empty. -/
theorem start_eq_ofTrace :
    start (.stream input prompt) (.stream schedule 0 0) = ofTrace input prompt schedule [] :=
  rfl

/-- A flush that is tried under a condition succeeds wherever it is tried, or it is tried and
fails. -/
theorem flush_cases (needed : Prop) (next : Option StreamFault) :
    (needed → next = none) ∨ ∃ fault, needed ∧ next = some fault := by
  cases next with
  | none => exact .inl fun _ ↦ rfl
  | some fault =>
      by_cases hneeded : needed
      · exact .inr ⟨fault, hneeded, rfl⟩
      · exact .inl fun h ↦ absurd h hneeded

/-- A flush goes as the schedule says for the next one. -/
theorem tryFlush_ofTrace :
    (ofTrace input prompt schedule trace).tryFlush =
      match schedule.flush (trace.countP isFlush) with
      | some fault => (.error fault, ofTrace input prompt schedule (trace ++ [.flushFailed]))
      | none => (.ok (), ofTrace input prompt schedule (trace ++ [.flushed])) := by
  simp only [ofTrace, tryFlush]
  cases schedule.flush (trace.countP isFlush) <;>
    simp [isRead, isWrite, isFlush, delivered?]

variable (input prompt schedule trace) in
/-- Flushing the writer is one attempt to flush its stream. -/
theorem flush_ofTrace :
    (ofTrace input prompt schedule trace).flush =
      match schedule.flush (trace.countP isFlush) with
      | some fault =>
          (.error (.ofStream .flushFailed fault),
            ofTrace input prompt schedule (trace ++ [.flushFailed]))
      | none => (.ok (), ofTrace input prompt schedule (trace ++ [.flushed])) := by
  rw [flush, tryFlush_ofTrace]
  cases schedule.flush (trace.countP isFlush) <;> rfl

/-- A write fails where the schedule has a fault for it. -/
theorem write_of_some {value : UInt8} {fault : StreamFault}
    (h : schedule.write (trace.countP isWrite) = some fault) :
    (ofTrace input prompt schedule trace).writeByte value =
      (.error (.ofStream .writeFailed fault),
        ofTrace input prompt schedule (trace ++ [.writeFailed value])) := by
  simp [ofTrace, writeByte, h, isRead, isWrite, isFlush, delivered?]

/-- A newline that has been written is followed by a flush, which decides how the call ends. -/
theorem writeByte_newline (h : schedule.write (trace.countP isWrite) = none) :
    (ofTrace input prompt schedule trace).writeByte 0x0A =
      match schedule.flush (trace.countP isFlush) with
      | some fault =>
          (.error (.ofStream .writeFailed fault),
            ofTrace input prompt schedule (trace ++ [.wrote 0x0A, .flushFailed]))
      | none => (.ok (), ofTrace input prompt schedule (trace ++ [.wrote 0x0A, .flushed])) := by
  simp only [ofTrace, writeByte, h, tryFlush, if_true]
  cases schedule.flush (trace.countP isFlush) <;>
    simp [List.countP_cons, isRead, isWrite, isFlush, delivered?]

/-- A write succeeds where the schedule has no fault for it, nor for the flush behind a newline. -/
theorem write_of_none {value : UInt8} (hwrite : schedule.write (trace.countP isWrite) = none)
    (hflush : value = 0x0A → schedule.flush (trace.countP isFlush) = none) :
    (ofTrace input prompt schedule trace).writeByte value =
      (.ok (), ofTrace input prompt schedule (trace ++ sent value)) := by
  by_cases hnewline : value = 0x0A
  · subst hnewline
    rw [writeByte_newline hwrite, hflush rfl]
    rfl
  · simp [ofTrace, writeByte, hwrite, sent, hnewline, isRead, isWrite, isFlush, delivered?]

variable (input prompt schedule trace) in
/-- What a write adds to the trace. -/
theorem write_ofTrace (value : UInt8) :
    (ofTrace input prompt schedule trace).writeByte value =
      (.ok (), ofTrace input prompt schedule (trace ++ sent value)) ∨
    ∃ chunk fault, Refusal input prompt schedule trace chunk fault ∧
      (ofTrace input prompt schedule trace).writeByte value =
        (.error fault, ofTrace input prompt schedule (trace ++ chunk)) := by
  cases hwrite : schedule.write (trace.countP isWrite) with
  | some fault => exact .inr ⟨_, _, .write value hwrite, write_of_some hwrite⟩
  | none =>
      obtain hflush | ⟨fault, rfl, hfault⟩ :=
        flush_cases (value = 0x0A) (schedule.flush (trace.countP isFlush))
      · exact .inl (write_of_none hwrite hflush)
      · rw [writeByte_newline hwrite, hfault]
        exact .inr ⟨_, _, .newline hfault, rfl⟩

/-- What the next item of the script adds to the trace. -/
theorem readScript_ofTrace :
    (ofTrace input prompt schedule trace).readScript (input.drop (trace.countP isRead)) prompt =
      match input[trace.countP isRead]? with
      | some (.byte value) =>
          (.ok value.toNat, ofTrace input prompt schedule (trace ++ [.readByte value]))
      | some (.failure fault) =>
          (.error (.ofStream .readFailed fault),
            ofTrace input prompt schedule (trace ++ [.readFailed]))
      | some .nothing | none =>
          (.error .endOfInput, ofTrace input prompt schedule (trace ++ [.readNothing])) := by
  -- after the call the script stands one item further on
  have hrest : input.drop (trace.countP isRead + 1) = (input.drop (trace.countP isRead)).tail :=
    List.tail_drop.symm
  rw [← List.head?_drop]
  simp only [ofTrace, readScript]
  generalize input.drop (trace.countP isRead) = script at hrest
  rcases script with _ | ⟨_ | _ | _, rest⟩ <;>
    simp [hrest, isRead, isWrite, isFlush, delivered?]

/-- The flush in front of a read is no read. -/
theorem countP_isRead_lead : (trace ++ lead prompt).countP isRead = trace.countP isRead := by
  cases prompt <;> simp [lead, isRead]

/-- A read goes to the script once the flush in front of it, if there is one, has succeeded. -/
theorem read_of_lead (h : prompt = true → schedule.flush (trace.countP isFlush) = none) :
    (ofTrace input prompt schedule trace).read =
      (ofTrace input prompt schedule (trace ++ lead prompt)).readScript
        (input.drop ((trace ++ lead prompt).countP isRead)) prompt := by
  cases prompt with
  | false => simp [lead, read, ofTrace]
  | true =>
      have hflush := flush_ofTrace input true schedule trace
      rw [h rfl] at hflush
      rw [countP_isRead_lead]
      simp only [ofTrace, read] at hflush ⊢
      rw [hflush]
      rfl

/-- A read fails where the flush in front of it does, and makes no other stream call. -/
theorem read_of_some {fault : StreamFault} (hprompt : prompt = true)
    (h : schedule.flush (trace.countP isFlush) = some fault) :
    (ofTrace input prompt schedule trace).read =
      (.error (.ofStream .flushFailed fault),
        ofTrace input prompt schedule (trace ++ [.flushFailed])) := by
  have hflush := flush_ofTrace input prompt schedule trace
  rw [h] at hflush
  subst hprompt
  simp only [ofTrace, read] at hflush ⊢
  rw [hflush]

/-- Behind the flush in front of it, a read goes as the next item of the script says. -/
theorem read_of_flushed (h : prompt = true → schedule.flush (trace.countP isFlush) = none) :
    (ofTrace input prompt schedule trace).read =
      match input[trace.countP isRead]? with
      | some (.byte value) => (.ok value.toNat,
          ofTrace input prompt schedule (trace ++ (lead prompt ++ [.readByte value])))
      | some (.failure fault) => (.error (.ofStream .readFailed fault),
          ofTrace input prompt schedule (trace ++ (lead prompt ++ [.readFailed])))
      | some .nothing | none => (.error .endOfInput,
          ofTrace input prompt schedule (trace ++ (lead prompt ++ [.readNothing]))) := by
  rw [read_of_lead h, readScript_ofTrace, countP_isRead_lead]
  simp only [List.append_assoc]

/-- A read succeeds where the flush in front of it does and the script has a byte. -/
theorem read_of_byte {value : UInt8}
    (hlead : prompt = true → schedule.flush (trace.countP isFlush) = none)
    (hitem : input[trace.countP isRead]? = some (.byte value)) :
    (ofTrace input prompt schedule trace).read = (.ok value.toNat,
      ofTrace input prompt schedule (trace ++ (lead prompt ++ [.readByte value]))) := by
  rw [read_of_flushed hlead, hitem]

variable (input prompt schedule trace) in
/-- What a read adds to the trace. -/
theorem read_ofTrace :
    (∃ value : UInt8, input[trace.countP isRead]? = some (.byte value) ∧
      (ofTrace input prompt schedule trace).read = (.ok value.toNat,
        ofTrace input prompt schedule (trace ++ (lead prompt ++ [.readByte value])))) ∨
    ∃ chunk fault, Refusal input prompt schedule trace chunk fault ∧
      (ofTrace input prompt schedule trace).read =
        (.error fault, ofTrace input prompt schedule (trace ++ chunk)) := by
  obtain hlead | ⟨fault, hprompt, hfault⟩ :=
    flush_cases (prompt = true) (schedule.flush (trace.countP isFlush))
  · have hread := @read_of_flushed input _ _ _ hlead
    cases hitem : input[trace.countP isRead]? with
    | none =>
        rw [hitem] at hread
        exact .inr ⟨_, _, .endOfInput (by simp [hitem]), hread⟩
    | some item =>
        rw [hitem] at hread
        cases item with
        | byte value => exact .inl ⟨value, rfl, hread⟩
        | nothing => exact .inr ⟨_, _, .endOfInput (by simp [hitem]), hread⟩
        | failure fault => exact .inr ⟨_, _, .read hitem, hread⟩
  · exact .inr ⟨_, _, .prompt hprompt hfault, read_of_some hprompt hfault⟩

/-- A call that succeeds makes the stream calls of an exchange. -/
theorem exists_exchange {after : Console}
    (h : Device.Yields (ofTrace input prompt schedule trace) after) :
    after = ofTrace input prompt schedule trace ∨
      ∃ chunk, Exchange prompt chunk ∧ after = ofTrace input prompt schedule (trace ++ chunk) := by
  cases h with
  | idle => exact .inl rfl
  | @read value _ hread =>
      change (ofTrace input prompt schedule trace).read = (.ok value, after) at hread
      obtain ⟨byte, _, heq⟩ | ⟨_, _, _, heq⟩ := read_ofTrace input prompt schedule trace
      · cases heq.symm.trans hread
        exact .inr ⟨_, .read byte, rfl⟩
      · cases heq.symm.trans hread
  | @write value _ hwrite =>
      change (ofTrace input prompt schedule trace).writeByte value = (.ok (), after) at hwrite
      obtain heq | ⟨_, _, _, heq⟩ := write_ofTrace input prompt schedule trace value
      · cases heq.symm.trans hwrite
        exact .inr ⟨_, .write value, rfl⟩
      · cases heq.symm.trans hwrite

/-- A command whose call is refused makes the stream calls of a refusal. -/
theorem exists_refusal {c : Command} {fault : ConsoleFault} {after : Console}
    (h : c.RefusedBy (ofTrace input prompt schedule trace) fault after) :
    ∃ chunk, Refusal input prompt schedule trace chunk fault ∧
      after = ofTrace input prompt schedule (trace ++ chunk) := by
  cases c with
  | add | move => cases h
  | write =>
      obtain ⟨value, hwrite⟩ := h
      change (ofTrace input prompt schedule trace).writeByte value = (.error fault, after) at hwrite
      obtain heq | ⟨chunk, _, hrefusal, heq⟩ := write_ofTrace input prompt schedule trace value
      · cases heq.symm.trans hwrite
      · cases heq.symm.trans hwrite
        exact ⟨chunk, hrefusal, rfl⟩
  | read =>
      change (ofTrace input prompt schedule trace).read = (.error fault, after) at h
      obtain ⟨_, _, heq⟩ | ⟨chunk, _, hrefusal, heq⟩ := read_ofTrace input prompt schedule trace
      · cases heq.symm.trans h
      · cases heq.symm.trans h
        exact ⟨chunk, hrefusal, rfl⟩

/-! ## Traces of calls that have succeeded -/

variable (prompt) in
/-- A trace of calls that have all succeeded. -/
inductive Orderly : List StreamEvent → Prop where
  | start : Orderly []
  | call {trace chunk : List StreamEvent} (h : Orderly trace) (hcall : Exchange prompt chunk) :
      Orderly (trace ++ chunk)

/-- No stream call fails in a call of the console that succeeds. -/
theorem Exchange.isFailure_eq {chunk : List StreamEvent} (h : Exchange prompt chunk) :
    ∀ event ∈ chunk, event.isFailure = false := by
  cases h with
  | write value =>
      unfold sent
      split <;> simp [isFailure]
  | read value => cases prompt <;> simp [lead, isFailure]

/-- No stream call has failed where all calls of the console have succeeded. -/
theorem Orderly.isFailure_eq (h : Orderly prompt trace) :
    ∀ event ∈ trace, event.isFailure = false := by
  induction h with
  | start => simp
  | call _ hcall ih => exact List.forall_mem_append.mpr ⟨ih, hcall.isFailure_eq⟩

/-- Of the stream calls of a call of the console that fails, the last one has failed and no
other. -/
theorem Refusal.exists_eq_append {chunk : List StreamEvent} {fault : ConsoleFault}
    (h : Refusal input prompt schedule trace chunk fault) :
    ∃ front last, chunk = front ++ [last] ∧ last.isFailure = true ∧
      ∀ event ∈ front, event.isFailure = false := by
  cases h with
  | write => exact ⟨[], _, rfl, rfl, by simp⟩
  | newline => exact ⟨[.wrote 0x0A], _, rfl, rfl, by simp [isFailure]⟩
  | prompt => exact ⟨[], _, rfl, rfl, by simp⟩
  | read | endOfInput =>
      refine ⟨lead prompt, _, rfl, rfl, ?_⟩
      cases prompt <;> simp [lead, isFailure]

/-- A call that succeeds leads on along an orderly trace. -/
theorem Orderly.yields {after : Console} (h : Orderly prompt trace)
    (hyields : Device.Yields (ofTrace input prompt schedule trace) after) :
    ∃ later, Orderly prompt later ∧ after = ofTrace input prompt schedule later := by
  obtain rfl | ⟨chunk, hexchange, rfl⟩ := exists_exchange hyields
  · exact ⟨trace, h, rfl⟩
  · exact ⟨_, h.call hexchange, rfl⟩

end Console

/-- The machine that starts on a blank tape between these streams. -/
def Machine.onStreams (size : Nat) (size_pos : 0 < size) (input : Script) (prompt : Bool)
    (schedule : Schedule) : Machine Console :=
  start (Tape.blank size size_pos) (Console.start (.stream input prompt) (.stream schedule 0 0))

end TapeMachine
