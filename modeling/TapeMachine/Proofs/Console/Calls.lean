import TapeMachine.Console.Call
import TapeMachine.Proofs.Machine.Frame

/-!
# Calls in a row

Whoever calls a console from outside goes on after a call that has failed, so the trace behind such
calls need not be orderly. `Goes` has one constructor for each way in which a call can go between
these streams, with the stream calls that it makes and what it answers, and by `call_ofTrace` there
is no other way. What the calls take from the input is followed along its data, `callAll_unread`,
which holds of every console.

The main theorem, `callAll_faithful`, is about any calls in a row between any streams.
-/

namespace TapeMachine

/-- How a fault of a stream shows to the caller: a failure of the system as a failure of input or
output with this text in front of the message, and what the stream rejects as invalid as it is. -/
inductive StreamFault.Surfaces (text : String) : StreamFault → ConsoleFault → Prop where
  | system {message : String} {raised : ConsoleFault} (htransfer : raised.isTransfer = true)
      (hmessage : raised.message = text ++ message) : Surfaces text (.system message) raised
  | invalid {message : String} : Surfaces text (.invalid message) (.rejected message)

/-- A fault of a stream shows with the text of the activity that it is taken for. -/
theorem StreamFault.surfaces_ofStream {activity : String → ConsoleFault} {text : String}
    (htransfer : ∀ message, (activity message).isTransfer = true)
    (hmessage : ∀ message, (activity message).message = text ++ message) (fault : StreamFault) :
    fault.Surfaces text (.ofStream activity fault) := by
  cases fault with
  | system message => exact .system (htransfer message) (hmessage message)
  | invalid message => exact .invalid

open StreamEvent

namespace Console

section Streams

variable (input : Script) (prompt : Bool) (schedule : Schedule)

/-- How a call goes that is made after this trace: what it answers, and the stream calls it makes.
Which way it goes is up to the next fault of the schedule and the next item of the script. -/
inductive Goes (trace : List StreamEvent) :
    Call → Except ConsoleFault (Option Int) → List StreamEvent → Prop where
  /-- What is no byte is refused before any stream is called. -/
  | noByte {value : Int} (h : ¬ (0 ≤ value ∧ value < 256)) :
      Goes trace (.write value) (.error .notStreamByte) []
  | written {value : UInt8} (hwrite : schedule.write (trace.countP isWrite) = none)
      (hflush : value = 0x0A → schedule.flush (trace.countP isFlush) = none) :
      Goes trace (.write value.toNat) (.ok none) (sent value)
  | unwritten {value : UInt8} {fault : StreamFault} {raised : ConsoleFault}
      (h : schedule.write (trace.countP isWrite) = some fault)
      (hraised : fault.Surfaces "Failed to write output: " raised) :
      Goes trace (.write value.toNat) (.error raised) [.writeFailed value]
  /-- The flush behind a newline fails as part of the write. -/
  | newline {fault : StreamFault} {raised : ConsoleFault}
      (hwrite : schedule.write (trace.countP isWrite) = none)
      (h : schedule.flush (trace.countP isFlush) = some fault)
      (hraised : fault.Surfaces "Failed to write output: " raised) :
      Goes trace (.write 0x0A) (.error raised) [.wrote 0x0A, .flushFailed]
  | flushed (h : schedule.flush (trace.countP isFlush) = none) :
      Goes trace .flush (.ok none) [.flushed]
  | unflushed {fault : StreamFault} {raised : ConsoleFault}
      (h : schedule.flush (trace.countP isFlush) = some fault)
      (hraised : fault.Surfaces "Failed to flush output: " raised) :
      Goes trace .flush (.error raised) [.flushFailed]
  /-- The flush in front of a read fails, and the read is not tried. -/
  | unprompted {fault : StreamFault} {raised : ConsoleFault} (hprompt : prompt = true)
      (h : schedule.flush (trace.countP isFlush) = some fault)
      (hraised : fault.Surfaces "Failed to flush output: " raised) :
      Goes trace .read (.error raised) [.flushFailed]
  | received {value : UInt8} (hlead : prompt = true → schedule.flush (trace.countP isFlush) = none)
      (h : input[trace.countP isRead]? = some (.byte value)) :
      Goes trace .read (.ok (some value.toNat)) (lead prompt ++ [.readByte value])
  | exhausted (hlead : prompt = true → schedule.flush (trace.countP isFlush) = none)
      (h : ∀ item, input[trace.countP isRead]? = some item → item = .nothing) :
      Goes trace .read (.error .endOfInput) (lead prompt ++ [.readNothing])
  | unread {fault : StreamFault} {raised : ConsoleFault}
      (hlead : prompt = true → schedule.flush (trace.countP isFlush) = none)
      (h : input[trace.countP isRead]? = some (.failure fault))
      (hraised : fault.Surfaces "Failed to read input: " raised) :
      Goes trace .read (.error raised) (lead prompt ++ [.readFailed])

/-- Among these stream calls of one call, a newline that has been written comes with one attempt to
flush behind it, and any other write, also one that has failed, is the only stream call. -/
def FlushesNewlines (chunk : List StreamEvent) : Prop :=
  ∀ event ∈ chunk, event.isWrite = true →
    if event = .wrote 0x0A then
      ∃ attempt : StreamEvent, attempt.isFlush = true ∧ chunk = [.wrote 0x0A, attempt]
    else
      chunk = [event]

variable {input : Script} {prompt : Bool} {schedule : Schedule} {trace chunk : List StreamEvent}
  {result : Except ConsoleFault (Option Int)}

/-! ## One call -/

/-- Writing the value of a byte writes the byte. -/
theorem write_toNat (value : UInt8) (console : Console) :
    console.write value.toNat = console.writeByte value := by
  have hlt := value.toNat_lt
  rw [write, if_pos ⟨by omega, by omega⟩, ofInt_toNat]

variable (input prompt schedule trace) in
/-- A write of a byte goes as the schedule says. -/
theorem call_write_ofTrace (value : UInt8) :
    ∃ result chunk, Goes input prompt schedule trace (.write value.toNat) result chunk ∧
      (ofTrace input prompt schedule trace).call (.write value.toNat) =
        (result, ofTrace input prompt schedule (trace ++ chunk)) := by
  have hsurfaces : ∀ fault : StreamFault,
      fault.Surfaces "Failed to write output: " (.ofStream .writeFailed fault) :=
    StreamFault.surfaces_ofStream (fun _ ↦ rfl) fun _ ↦ rfl
  simp only [call, write_toNat]
  cases hwrite : schedule.write (trace.countP isWrite) with
  | some fault =>
      rw [write_of_some hwrite]
      exact ⟨_, _, .unwritten hwrite (hsurfaces fault), rfl⟩
  | none =>
      obtain hflush | ⟨fault, rfl, hfault⟩ :=
        flush_cases (value = 0x0A) (schedule.flush (trace.countP isFlush))
      · rw [write_of_none hwrite hflush]
        exact ⟨_, _, .written hwrite hflush, rfl⟩
      · rw [writeByte_newline hwrite, hfault]
        exact ⟨_, _, .newline hwrite hfault (hsurfaces fault), rfl⟩

/-- A fault of a flush shows with the text of a flush. -/
theorem surfaces_flushFailed (fault : StreamFault) :
    fault.Surfaces "Failed to flush output: " (.ofStream .flushFailed fault) :=
  StreamFault.surfaces_ofStream (fun _ ↦ rfl) (fun _ ↦ rfl) fault

variable (input prompt schedule trace) in
/-- A flush goes as the schedule says. -/
theorem call_flush_ofTrace :
    ∃ result chunk, Goes input prompt schedule trace .flush result chunk ∧
      (ofTrace input prompt schedule trace).call .flush =
        (result, ofTrace input prompt schedule (trace ++ chunk)) := by
  simp only [call, flush_ofTrace]
  cases hflush : schedule.flush (trace.countP isFlush) with
  | some fault => exact ⟨_, _, .unflushed hflush (surfaces_flushFailed fault), rfl⟩
  | none => exact ⟨_, _, .flushed hflush, rfl⟩

variable (input prompt schedule trace) in
/-- A read goes as the script says, or does not come to it. -/
theorem call_read_ofTrace :
    ∃ result chunk, Goes input prompt schedule trace .read result chunk ∧
      (ofTrace input prompt schedule trace).call .read =
        (result, ofTrace input prompt schedule (trace ++ chunk)) := by
  have hsurfaces : ∀ fault : StreamFault,
      fault.Surfaces "Failed to read input: " (.ofStream .readFailed fault) :=
    StreamFault.surfaces_ofStream (fun _ ↦ rfl) fun _ ↦ rfl
  simp only [call]
  obtain hlead | ⟨fault, hprompt, hfault⟩ :=
    flush_cases (prompt = true) (schedule.flush (trace.countP isFlush))
  · rw [read_of_flushed hlead]
    cases hitem : input[trace.countP isRead]? with
    | none => exact ⟨_, _, .exhausted hlead (by simp [hitem]), rfl⟩
    | some item =>
        cases item with
        | byte value => exact ⟨_, _, .received hlead hitem, rfl⟩
        | nothing => exact ⟨_, _, .exhausted hlead (by simp [hitem]), rfl⟩
        | failure fault => exact ⟨_, _, .unread hlead hitem (hsurfaces fault), rfl⟩
  · rw [read_of_some hprompt hfault]
    exact ⟨_, _, .unprompted hprompt hfault (surfaces_flushFailed fault), rfl⟩

variable (input prompt schedule trace) in
/-- Every call goes in one of the ways of `Goes`, and leads to the console of the longer trace. -/
theorem call_ofTrace (c : Call) :
    ∃ result chunk, Goes input prompt schedule trace c result chunk ∧
      (ofTrace input prompt schedule trace).call c =
        (result, ofTrace input prompt schedule (trace ++ chunk)) := by
  cases c with
  | flush => exact call_flush_ofTrace input prompt schedule trace
  | read => exact call_read_ofTrace input prompt schedule trace
  | write value =>
      by_cases hbyte : 0 ≤ value ∧ value < 256
      · obtain ⟨byte, rfl⟩ : ∃ byte : UInt8, value = byte.toNat :=
          ⟨UInt8.ofNat value.toNat, by simp; omega⟩
        exact call_write_ofTrace input prompt schedule trace byte
      · refine ⟨_, _, .noByte hbyte, ?_⟩
        rw [List.append_nil]
        simp [call, write, hbyte, ofTrace]

/-- What is no byte is refused, and no stream is called. -/
theorem Goes.eq_of_not_byte {value : Int}
    (h : Goes input prompt schedule trace (.write value) result chunk)
    (hvalue : ¬ (0 ≤ value ∧ value < 256)) : result = .error .notStreamByte ∧ chunk = [] := by
  cases h with
  | noByte => exact ⟨rfl, rfl⟩
  | @written byte | @unwritten byte =>
      have hlt := byte.toNat_lt
      omega
  | newline => omega

/-- A stream call that writes no newline needs no flush. -/
theorem flushesNewlines_singleton {event : StreamEvent} (h : event ≠ .wrote 0x0A) :
    FlushesNewlines [event] := by
  intro other hmem _
  obtain rfl := List.mem_singleton.mp hmem
  rw [if_neg h]

/-- A newline has its flush in the attempt behind it. -/
theorem flushesNewlines_newline {attempt : StreamEvent} (h : attempt.isFlush = true) :
    FlushesNewlines [.wrote 0x0A, attempt] := by
  intro event hmem hwrites
  obtain rfl | hmem := List.mem_cons.mp hmem
  · rw [if_pos rfl]
    exact ⟨attempt, h, rfl⟩
  · obtain rfl := List.mem_singleton.mp hmem
    cases event <;> simp [isWrite, isFlush] at hwrites h

/-- Where nothing is written, nothing needs a flush. -/
theorem flushesNewlines_of_isWrite (h : ∀ event ∈ chunk, event.isWrite = false) :
    FlushesNewlines chunk := by
  intro event hmem hwrites
  cases (h event hmem).symm.trans hwrites

/-- Newlines are flushed and nothing else that is written. -/
theorem Goes.flushesNewlines {c : Call}
    (h : Goes input prompt schedule trace c result chunk) : FlushesNewlines chunk := by
  cases h with
  | @written value =>
      unfold sent
      split
      · exact flushesNewlines_newline rfl
      · exact flushesNewlines_singleton (by simpa)
  | unwritten => exact flushesNewlines_singleton (by simp)
  | newline => exact flushesNewlines_newline rfl
  | noByte | flushed | unflushed | unprompted =>
      exact flushesNewlines_of_isWrite (by simp [isWrite])
  | received | exhausted | unread =>
      refine flushesNewlines_of_isWrite ?_
      cases prompt <;> simp [lead, isWrite]

/-- A reader that prompts makes one attempt to flush, and goes on to its stream where that
succeeds. -/
theorem Goes.flush_first (h : Goes input true schedule trace .read result chunk) :
    chunk = [.flushFailed] ∨
      ∃ taken : StreamEvent, taken.isRead = true ∧ chunk = [.flushed, taken] := by
  cases h with
  | unprompted => exact .inl rfl
  | received | exhausted | unread => exact .inr ⟨_, rfl, rfl⟩

/-! ## Calls one after the other -/

/-- The value that a call has taken from the input. -/
def taken : Except ConsoleFault (Option Int) → List Int
  | .ok (some value) => [value]
  | .ok none | .error _ => []

/-- A write does not touch the reader, also one of what is no byte. -/
theorem write_reader (value : Int) (console : Console) :
    (console.write value).2.reader = console.reader := by
  unfold write
  split
  · exact (console.writeByte_frame _).1
  · split <;> rfl

/-- A call takes the front of the input, if it takes anything. -/
theorem call_unread (console : Console) (c : Call) :
    console.reader.unread = taken (console.call c).1 ++ (console.call c).2.reader.unread := by
  cases c with
  | flush =>
      have hreader := console.flush_frame.1
      rcases hflush : console.flush with ⟨_ | _, after⟩ <;> rw [hflush] at hreader <;>
        simp only [call, hflush] <;> exact congrArg Reader.unread hreader.symm
  | write value =>
      have hreader := write_reader value console
      rcases hwrite : console.write value with ⟨_ | _, after⟩ <;> rw [hwrite] at hreader <;>
        simp only [call, hwrite] <;> exact congrArg Reader.unread hreader.symm
  | read =>
      rcases hread : console.read with ⟨_ | _, after⟩ <;> simp only [call, hread] <;>
        exact (read_frame hread).2

/-- Calls in a row take the input from its front on, and skip nothing. -/
theorem callAll_unread (console : Console) (calls : List Call) :
    console.reader.unread =
      (console.callAll calls).1.flatMap taken ++ (console.callAll calls).2.reader.unread := by
  induction calls generalizing console with
  | nil => rfl
  | cons c rest ih =>
      simp only [callAll, List.flatMap_cons, List.append_assoc]
      rw [call_unread console c, ih]

/-- Of calls in a row, the later ones go on from the console that the earlier ones have left. -/
theorem callAll_append (console : Console) (calls later : List Call) :
    console.callAll (calls ++ later) =
      ((console.callAll calls).1 ++ ((console.callAll calls).2.callAll later).1,
        ((console.callAll calls).2.callAll later).2) := by
  induction calls generalizing console with
  | nil => rfl
  | cons c rest ih =>
      simp only [List.cons_append, callAll, ih]

variable (input prompt schedule trace) in
/-- Calls in a row lead from the console of a trace to the console of a longer one. -/
theorem callAll_ofTrace (calls : List Call) :
    ∃ results chunk, (ofTrace input prompt schedule trace).callAll calls =
      (results, ofTrace input prompt schedule (trace ++ chunk)) := by
  induction calls generalizing trace with
  | nil => exact ⟨[], [], by rw [List.append_nil]; rfl⟩
  | cons c rest ih =>
      obtain ⟨result, chunk, -, hcall⟩ := call_ofTrace input prompt schedule trace c
      obtain ⟨results, chunk', hrest⟩ := ih (trace ++ chunk)
      refine ⟨result :: results, chunk ++ chunk', ?_⟩
      rw [callAll, hcall]
      simp only [hrest, List.append_assoc]

/-- A flush that fails has not touched the input stream. -/
theorem reader_of_flushFailed :
    (ofTrace input prompt schedule (trace ++ [.flushFailed])).reader =
      (ofTrace input prompt schedule trace).reader := by
  simp [ofTrace, isRead]

end Streams

/-- Streams lose, reorder and repeat no bytes, whatever calls are made and whatever fails.

After any calls in a row, the bytes delivered are those of the stream writes that have succeeded, in
order, and the values that the reads have answered with, followed by the data that can still be
read, are the data of the input. The next call then adds its stream calls to the trace and goes as
`Goes` says: a failure of the system shows as a failure of input or output with the text of what has
been tried, a read without data as the end of the input, and a rejection by a stream unchanged.

What is no byte is refused without a stream call. A newline that has been written is followed by one
attempt to flush, and no other write is. A reader that prompts first makes one attempt to flush;
where that fails, the reader stays as it is, and the next byte can still be read. -/
theorem callAll_faithful (input : Script) (prompt : Bool) (schedule : Schedule)
    (calls : List Call) :
    ∃ results console,
      (start (.stream input prompt) (.stream schedule 0 0)).callAll calls = (results, console) ∧
      console.delivered.toList = console.events.toList.filterMap delivered? ∧
      results.flatMap taken ++ console.reader.unread =
        input.data.map (fun value ↦ (value.toNat : Int)) ∧
      ∀ c, ∃ result chunk after,
        (start (.stream input prompt) (.stream schedule 0 0)).callAll (calls ++ [c]) =
          (results ++ [result], after) ∧
        after.events.toList = console.events.toList ++ chunk ∧
        Goes input prompt schedule console.events.toList c result chunk ∧
        (∀ value, c = .write value → ¬ (0 ≤ value ∧ value < 256) →
          result = .error .notStreamByte ∧ chunk = []) ∧
        FlushesNewlines chunk ∧
        (c = .read → prompt = true →
          chunk = [.flushFailed] ∧ after.reader = console.reader ∨
            ∃ received : StreamEvent, received.isRead = true ∧ chunk = [.flushed, received]) := by
  obtain ⟨results, trace, hcalls⟩ := callAll_ofTrace input prompt schedule [] calls
  rw [List.nil_append, ← start_eq_ofTrace] at hcalls
  have hunread := callAll_unread (start (.stream input prompt) (.stream schedule 0 0)) calls
  rw [hcalls] at hunread
  refine ⟨results, _, hcalls, by simp [ofTrace], hunread.symm, ?_⟩
  intro c
  obtain ⟨result, chunk, hgoes, hcall⟩ := call_ofTrace input prompt schedule trace c
  have hlater : (start (.stream input prompt) (.stream schedule 0 0)).callAll (calls ++ [c]) =
      (results ++ [result], ofTrace input prompt schedule (trace ++ chunk)) := by
    rw [callAll_append, hcalls]
    simp only [callAll, hcall]
  refine ⟨result, chunk, _, hlater, by simp [ofTrace], hgoes, ?_, hgoes.flushesNewlines, ?_⟩
  · intro value heq hvalue
    subst heq
    exact hgoes.eq_of_not_byte hvalue
  · intro heq hprompt
    subst heq hprompt
    obtain rfl | hreads := hgoes.flush_first
    · exact .inl ⟨rfl, reader_of_flushFailed⟩
    · exact .inr hreads

-- the read whose flush fails leaves the byte to the next one
example :
    ((start (.stream [.byte 0x41] true)
      (.stream (Schedule.reliable.add .flush 0 (.system "gone")) 0 0)).callAll [.read, .read]).1 =
      [.error (.flushFailed "gone"), .ok (some 0x41)] :=
  rfl

end Console

end TapeMachine
