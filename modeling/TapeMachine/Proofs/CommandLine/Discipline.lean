import TapeMachine.CommandLine
import TapeMachine.Proofs.Console.Trace
import TapeMachine.Proofs.Machine.Safety

/-!
# The stream calls of the command line

A run of a source file makes the stream calls of its program, and then flushes once. The main
theorem, `run_disciplined`, says for every run that comes to an end, whatever the input holds and
whichever stream calls fail, in which order the calls are made and what they make of the run: the
program stops at its first failure, it reads only what comes after a flush, and a failure of the
last flush counts instead of an earlier one.

The calls of the program are taken apart by `Console.Exchange` and `Console.Refusal`: what they all
have is shown for these few pieces of a trace, and put together by appending.
-/

namespace TapeMachine

open StreamEvent

namespace Console

/-- Every read comes directly behind a flush that has succeeded, and every newline that has been
written stands directly in front of an attempt to flush. -/
structure Tidy (calls : List StreamEvent) : Prop where
  read : ∀ i event, calls[i]? = some event → event.isRead = true →
    ∃ j, i = j + 1 ∧ calls[j]? = some .flushed
  newline : ∀ i, calls[i]? = some (.wrote 0x0A) →
    ∃ event, calls[i + 1]? = some event ∧ event.isFlush = true

/-- Tidy traces make a tidy trace. -/
theorem Tidy.append {first second : List StreamEvent} (hfirst : Tidy first)
    (hsecond : Tidy second) : Tidy (first ++ second) := by
  constructor
  · intro i event hevent hread
    by_cases hlt : i < first.length
    · rw [List.getElem?_append_left hlt] at hevent
      obtain ⟨j, rfl, hflushed⟩ := hfirst.read i event hevent hread
      exact ⟨j, rfl, by rwa [List.getElem?_append_left (by omega)]⟩
    · rw [List.getElem?_append_right (by omega)] at hevent
      obtain ⟨j, hj, hflushed⟩ := hsecond.read _ event hevent hread
      refine ⟨first.length + j, by omega, ?_⟩
      rwa [List.getElem?_append_right (by omega), Nat.add_sub_cancel_left]
  · intro i hwrote
    by_cases hlt : i < first.length
    · rw [List.getElem?_append_left hlt] at hwrote
      obtain ⟨event, hevent, hflush⟩ := hfirst.newline i hwrote
      have hnext : i + 1 < first.length := (List.getElem?_eq_some_iff.mp hevent).1
      exact ⟨event, by rwa [List.getElem?_append_left hnext], hflush⟩
    · rw [List.getElem?_append_right (by omega)] at hwrote
      obtain ⟨event, hevent, hflush⟩ := hsecond.newline _ hwrote
      refine ⟨event, ?_, hflush⟩
      rwa [List.getElem?_append_right (by omega), Nat.sub_add_comm (by omega)]

/-- A single call that is neither a read nor a newline is tidy. -/
theorem tidy_singleton {event : StreamEvent} (hread : event.isRead = false)
    (hnewline : event ≠ .wrote 0x0A) : Tidy [event] := by
  constructor
  · intro i other hother hisRead
    obtain rfl := List.mem_singleton.mp (List.mem_of_getElem? hother)
    cases hread.symm.trans hisRead
  · intro i hwrote
    exact absurd (List.mem_singleton.mp (List.mem_of_getElem? hwrote)).symm hnewline

/-- A flush that succeeds may stand in front of any call but a newline. -/
theorem tidy_flushed {event : StreamEvent} (hnewline : event ≠ .wrote 0x0A) :
    Tidy [.flushed, event] := by
  constructor
  · intro i other hother hisRead
    cases i with
    | zero =>
        obtain rfl : StreamEvent.flushed = other := by simpa using hother
        cases hisRead
    | succ i =>
        have hlt : i + 1 < 2 := (List.getElem?_eq_some_iff.mp hother).1
        obtain rfl : i = 0 := by omega
        exact ⟨0, rfl, rfl⟩
  · intro i hwrote
    have hmem := List.mem_of_getElem? hwrote
    have hevent : StreamEvent.wrote 0x0A = event := by simpa using hmem
    exact absurd hevent.symm hnewline

/-- An attempt to flush may stand behind a newline. -/
theorem tidy_newline {event : StreamEvent} (hflush : event.isFlush = true) :
    Tidy [.wrote 0x0A, event] := by
  have hnewline : event ≠ .wrote 0x0A := by
    rintro rfl
    cases hflush
  constructor
  · intro i other hother hisRead
    have hmem := List.mem_of_getElem? hother
    obtain rfl | rfl : other = .wrote 0x0A ∨ other = event := by simpa using hmem
    · cases hisRead
    · cases other <;> simp_all [isRead, isFlush]
  · intro i hwrote
    cases i with
    | zero => exact ⟨event, rfl, hflush⟩
    | succ i =>
        have hmem : StreamEvent.wrote 0x0A ∈ [event] := List.mem_of_getElem? hwrote
        exact absurd (List.mem_singleton.mp hmem).symm hnewline

/-- The stream calls of a call that succeeds are tidy. -/
theorem Exchange.tidy {chunk : List StreamEvent} (h : Exchange true chunk) : Tidy chunk := by
  cases h with
  | write value =>
      unfold sent
      split
      case isTrue => exact tidy_newline rfl
      case isFalse hvalue => exact tidy_singleton rfl (by simpa using hvalue)
  | read value => exact tidy_flushed (by simp)

/-- The stream calls of a call that fails are tidy. -/
theorem Refusal.tidy {input : Script} {schedule : Schedule} {trace chunk : List StreamEvent}
    {fault : ConsoleFault} (h : Refusal input true schedule trace chunk fault) : Tidy chunk := by
  cases h with
  | write => exact tidy_singleton rfl (by simp)
  | newline => exact tidy_newline rfl
  | prompt => exact tidy_singleton rfl (by simp)
  | read | endOfInput => exact tidy_flushed (by simp)

/-- The stream calls of calls that have all succeeded are tidy. -/
theorem Orderly.tidy {trace : List StreamEvent} (h : Orderly true trace) : Tidy trace := by
  induction h with
  | start => exact ⟨by simp, by simp⟩
  | call _ hcall ih => exact ih.append hcall.tidy

end Console

namespace CommandLine

/-- The arguments name a path at which the tree has a file with this source. -/
def Names (arguments : List String) (tree : FileTree) (source : Source) : Prop :=
  ∃ reading path, grammar.read arguments = .ok reading ∧
    reading.positionals.lookup "source" = some path ∧
    tree.find (Path.ofText path) = .file source

/-- The machine on which a program is started between these streams. -/
def initial (input : Script) (schedule : Schedule) : Machine Console :=
  .onStreams defaultTapeSize defaultTapeSize_pos input true schedule

/-- The flush that follows on these stream calls, and goes as the schedule says. -/
def closing (schedule : Schedule) (body : List StreamEvent) : StreamEvent :=
  if schedule.flush (body.countP isFlush) = none then .flushed else .flushFailed

/-- What the stream calls of a run have to do with each other, and with its ending. The body is
what its program calls. -/
structure Report.Disciplined (report : Report) (input : Script) (schedule : Schedule)
    (body : List StreamEvent) : Prop where
  /-- Behind the body there is one attempt to flush and nothing else. -/
  events_eq : report.events.toList = body ++ [closing schedule body]
  /-- No call of the body but its last one has failed. -/
  failure_last : ∀ i event, body[i]? = some event → event.isFailure = true → i + 1 = body.length
  tidy : Console.Tidy report.events.toList
  /-- Nothing that has been written is held back when something is read. -/
  nothing_pending : ∀ (i j : Nat) value event, i < j →
    report.events[i]? = some (.wrote value) → report.events[j]? = some event →
    event.isRead = true → ∃ k, i < k ∧ k < j ∧ report.events[k]? = some .flushed
  delivered : report.output.toList = report.events.toList.filterMap delivered?
  exit_zero_iff : report.ending = .exit 0 ↔
    ∀ event ∈ report.events.toList, event.isFailure = false
  /-- Where the last flush fails, nothing else decides how the run ends. -/
  flush_failed : ∀ message, schedule.flush (body.countP isFlush) = some (.system message) →
    report.ending = .exit 1 ∧
      report.errors = "Runtime error: Failed to flush output: " ++ message ++ "\n"
  flush_rejected : ∀ message, schedule.flush (body.countP isFlush) = some (.invalid message) →
    report.ending = .escaped (.device (.rejected message)) ∧ report.errors = ""
  /-- Otherwise the call of the program that has failed decides, if there is one. -/
  body_decides : schedule.flush (body.countP isFlush) = none →
    (∀ event ∈ body, event.isFailure = false) ∧ report.ending = .exit 0 ∧ report.errors = "" ∨
    ∃ front chunk fault, body = front ++ chunk ∧
      Console.Refusal input true schedule front chunk fault ∧
      (report.ending, report.errors) = endingOf (.device fault)

variable {arguments : List String} {tree : FileTree} {source : Source} {program : Program}
  {input : Script} {schedule : Schedule} {outcome : Outcome ConsoleFault}
  {final : Machine Console} {body : List StreamEvent}

/-- Arguments that name a source have it run. -/
theorem Names.run_eq (h : Names arguments tree source) (patience : Nat) :
    run patience arguments tree input schedule = runSource patience source input schedule := by
  obtain ⟨reading, path, hread, hpath, hfile⟩ := h
  simp only [run, hread, hpath, Option.getD_some, hfile]

/-- How the stream calls of a program stand when it ends: they are orderly, up to those of a call
that was refused. -/
inductive Ended (input : Script) (schedule : Schedule) :
    List StreamEvent → Outcome ConsoleFault → Prop where
  | finished {body : List StreamEvent} (h : Console.Orderly true body) :
      Ended input schedule body .finished
  | faulted {front chunk : List StreamEvent} {fault : ConsoleFault}
      (h : Console.Orderly true front)
      (hrefusal : Console.Refusal input true schedule front chunk fault) :
      Ended input schedule (front ++ chunk) (.faulted (.device fault))

/-- A compiled program that ends has made the stream calls of one of the two ends. -/
theorem ended_of_ends (hcompile : compile source = .ok program)
    (hend : Machine.Ends program.code none (initial input schedule) outcome final) :
    ∃ body, Ended input schedule body outcome ∧
      final.store.device = Console.ofTrace input true schedule body := by
  obtain ⟨count, last, hrun, _, hstop⟩ := Machine.ends_iff.mp hend
  obtain ⟨trace, horderly, hdevice⟩ :
      ∃ trace, Console.Orderly true trace ∧
        last.store.device = Console.ofTrace input true schedule trace := by
    refine Machine.run_induction (P := fun machine ↦ ∃ trace, Console.Orderly true trace ∧
      machine.store.device = Console.ofTrace input true schedule trace) ?_ ?_ hrun
    · rintro machine following ⟨trace, horderly, hdevice⟩ hstep
      have hyields := Machine.yields_of_step? hstep
      rw [hdevice] at hyields
      exact horderly.yields hyields
    · exact ⟨[], .start, Console.start_eq_ofTrace⟩
  cases hstop with
  | finished => exact ⟨trace, .finished horderly, hdevice⟩
  | limitReached _ hlimit => cases hlimit
  | faulted hfails =>
      have hvisited : Machine.Visited program.code (initial input schedule) last :=
        Machine.Visited.initial.of_run hrun
      obtain ⟨c, refusal, _, rfl, hrefused⟩ := hvisited.refused hcompile hfails
      rw [hdevice] at hrefused
      obtain ⟨chunk, hrefusal, hafter⟩ := Console.exists_refusal hrefused
      exact ⟨_, .faulted horderly hrefusal, hafter⟩

/-- The calls of a program that has ended are tidy. -/
theorem Ended.tidy (h : Ended input schedule body outcome) : Console.Tidy body := by
  cases h with
  | finished h => exact h.tidy
  | faulted h hrefusal => exact h.tidy.append hrefusal.tidy

/-- No call of a program but its last one has failed. -/
theorem Ended.failure_last (h : Ended input schedule body outcome) {i : Nat} {event : StreamEvent}
    (hevent : body[i]? = some event) (hfailure : event.isFailure = true) :
    i + 1 = body.length := by
  -- in front of the last call there are none but calls that have succeeded
  have hsplit : (∀ event ∈ body, event.isFailure = false) ∨
      ∃ front last, body = front ++ [last] ∧ ∀ event ∈ front, event.isFailure = false := by
    cases h with
    | finished h => exact .inl h.isFailure_eq
    | faulted h hrefusal =>
        obtain ⟨front, last, rfl, _, hfront⟩ := hrefusal.exists_eq_append
        exact .inr ⟨_, last, (List.append_assoc _ _ _).symm,
          List.forall_mem_append.mpr ⟨h.isFailure_eq, hfront⟩⟩
  obtain hnone | ⟨front, last, rfl, hfront⟩ := hsplit
  · cases (hnone event (List.mem_of_getElem? hevent)).symm.trans hfailure
  · have hlt : i < (front ++ [last]).length := (List.getElem?_eq_some_iff.mp hevent).1
    rw [List.length_append, List.length_singleton] at hlt ⊢
    by_cases hinner : i < front.length
    · rw [List.getElem?_append_left hinner] at hevent
      cases (hfront event (List.mem_of_getElem? hevent)).symm.trans hfailure
    · omega

/-- No call of a program that has ended has failed exactly where it has finished. -/
theorem Ended.finished_iff (h : Ended input schedule body outcome) :
    outcome = .finished ↔ ∀ event ∈ body, event.isFailure = false := by
  cases h with
  | finished h => exact iff_of_true rfl h.isFailure_eq
  | faulted h hrefusal =>
      obtain ⟨front, last, rfl, hlast, _⟩ := hrefusal.exists_eq_append
      refine iff_of_false nofun fun hall ↦ ?_
      cases (hall last (by simp)).symm.trans hlast

/-- The last flush succeeds where the schedule has no fault for it. -/
theorem isFailure_closing_iff :
    (closing schedule body).isFailure = false ↔ schedule.flush (body.countP isFlush) = none := by
  unfold closing
  split <;> simp_all [isFailure]

/-- The last flush may stand behind any call. -/
theorem tidy_closing : Console.Tidy [closing schedule body] := by
  unfold closing
  split <;> exact Console.tidy_singleton rfl (by simp)

/-- The complaint about a flush that the system refuses. -/
theorem failed_flushFailed (message : String) :
    failed (.flushFailed message) =
      "Runtime error: Failed to flush output: " ++ message ++ "\n" := by
  have hmessage : (ConsoleFault.flushFailed message).message =
      "Failed to flush output: " ++ message := rfl
  have hstart : "Runtime error: " ++ "Failed to flush output: " =
      "Runtime error: Failed to flush output: " := by
    decide
  unfold failed
  rw [hmessage, ← String.append_assoc, hstart]

/-- A fault never ends a run with exit code zero. -/
theorem endingOf_ne_exit_zero (fault : Fault ConsoleFault) : (endingOf fault).1 ≠ .exit 0 := by
  unfold endingOf
  split
  · split <;> simp
  · simp

/-- What decides how a run ends: its last flush where this fails, and the outcome of its program
otherwise. -/
def verdict (schedule : Schedule) (body : List StreamEvent) (outcome : Outcome ConsoleFault) :
    Ending × String :=
  match schedule.flush (body.countP isFlush) with
  | some fault => endingOf (.device (.ofStream .flushFailed fault))
  | none => endingOfOutcome outcome

/-- The report of a run whose program comes to this outcome after these stream calls. -/
theorem runSource_eq {patience : Nat} (hcompile : compile source = .ok program)
    (hexecute : (initial input schedule).execute program.code none patience = (outcome, final))
    (hdevice : final.store.device = Console.ofTrace input true schedule body) :
    let report := runSource patience source input schedule
    report.events.toList = body ++ [closing schedule body] ∧
      report.output.toList = (body ++ [closing schedule body]).filterMap delivered? ∧
      (report.ending, report.errors) = verdict schedule body outcome := by
  unfold initial Machine.onStreams at hexecute
  have hflush := Console.flush_ofTrace input true schedule body
  simp only [runSource, hcompile, execute, Machine.executeWithin, fuelFor, hexecute, hdevice,
    hflush, verdict, closing]
  cases schedule.flush (body.countP isFlush) <;> simp [Console.ofTrace]

/-- A run whose calls and whose ending are these is disciplined. -/
theorem Ended.disciplined {report : Report} (h : Ended input schedule body outcome)
    (hevents : report.events.toList = body ++ [closing schedule body])
    (houtput : report.output.toList = (body ++ [closing schedule body]).filterMap delivered?)
    (hverdict : (report.ending, report.errors) = verdict schedule body outcome) :
    report.Disciplined input schedule body := by
  have htidy : Console.Tidy report.events.toList := hevents ▸ h.tidy.append tidy_closing
  unfold verdict at hverdict
  constructor
  case events_eq => exact hevents
  case failure_last => exact fun i event ↦ h.failure_last
  case tidy => exact htidy
  case nothing_pending =>
    intro i j value event hlt hwrote hevent hread
    rw [← Array.getElem?_toList] at hwrote hevent
    obtain ⟨k, rfl, hflushed⟩ := htidy.read j event hevent hread
    -- the call in front of the read is a flush, so it is not the write
    have hne : i ≠ k := by
      rintro rfl
      cases hwrote.symm.trans hflushed
    exact ⟨k, by omega, by omega, by rwa [← Array.getElem?_toList]⟩
  case delivered => rw [houtput, hevents]
  case exit_zero_iff =>
    rw [hevents, List.forall_mem_append, List.forall_mem_singleton, isFailure_closing_iff,
      ← h.finished_iff]
    cases hflush : schedule.flush (body.countP isFlush) with
    | some fault =>
        rw [hflush] at hverdict
        have hending := congrArg Prod.fst hverdict
        refine iff_of_false (fun hzero ↦ ?_) (by simp)
        exact endingOf_ne_exit_zero _ (hending.symm.trans hzero)
    | none =>
        rw [hflush] at hverdict
        have hending := congrArg Prod.fst hverdict
        cases h with
        | finished h => exact iff_of_true hending (by simp)
        | faulted h hrefusal =>
            refine iff_of_false (fun hzero ↦ ?_) (by simp)
            exact endingOf_ne_exit_zero _ (hending.symm.trans hzero)
  case flush_failed =>
    intro message hfault
    rw [hfault] at hverdict
    rw [← failed_flushFailed]
    exact Prod.mk.inj hverdict
  case flush_rejected =>
    intro message hfault
    rw [hfault] at hverdict
    exact Prod.mk.inj hverdict
  case body_decides =>
    intro hnone
    rw [hnone] at hverdict
    cases h with
    | finished h => exact .inl ⟨h.isFailure_eq, Prod.mk.inj hverdict⟩
    | faulted h hrefusal => exact .inr ⟨_, _, _, rfl, hrefusal, hverdict⟩

/-- Every run of a source file that comes to an end is disciplined, whatever its input holds and
whichever of its stream calls fail: with patience enough it has one and the same report, in which
the calls of the program are followed by one attempt to flush and nothing else. -/
theorem run_disciplined (hnames : Names arguments tree source)
    (hcompile : compile source = .ok program)
    (hend : Machine.Ends program.code none (initial input schedule) outcome final) :
    ∃ report : Report,
      report.Disciplined input schedule final.store.device.events.toList ∧
      ∃ least, ∀ more, run (least + more) arguments tree input schedule = report := by
  obtain ⟨body, hended, hdevice⟩ := ended_of_ends hcompile hend
  obtain ⟨least, hexecute⟩ := hend.execute_eq
  have hbody : final.store.device.events.toList = body := by
    rw [hdevice]
    rfl
  refine ⟨runSource least source input schedule, ?_, least, fun more ↦ ?_⟩
  · obtain ⟨hevents, houtput, hverdict⟩ := runSource_eq hcompile (hexecute 0) hdevice
    rw [hbody]
    exact hended.disciplined hevents houtput hverdict
  · have hmore := hexecute more
    have hleast := hexecute 0
    unfold initial Machine.onStreams at hmore hleast
    rw [hnames.run_eq]
    simp only [runSource, hcompile, execute, Machine.executeWithin, fuelFor, hmore]
    rw [show least = least + 0 from rfl, hleast]

/-- A read is refused by the system, and the stream that is flushed at the end has been closed. The
file lies beside the working directory. -/
theorem run_disciplined_closed :
    let tree : FileTree := ⟨["home"], [(["p.b"], [0x2C])], []⟩
    let schedule := Schedule.reliable.add .flush 1 (.invalid "closed")
    let input : Script := [.failure (.system "gone")]
    Names ["../p.b"] tree [0x2C] ∧
      ∃ report : Report, report.Disciplined input schedule [.flushed, .readFailed] ∧
        ∃ least, ∀ more, run (least + more) ["../p.b"] tree input schedule = report := by
  intro tree schedule input
  have hnames : Names ["../p.b"] tree [0x2C] :=
    ⟨⟨[], [("source", "../p.b")]⟩, "../p.b", rfl, rfl, by decide⟩
  let program : Program := #[.command .read]
  have hcode : program.code = #[.instruction (.command .read)] := by simp [program, Program.code]
  have hend : Machine.Ends program.code none (initial input schedule)
      (.faulted (.device (.readFailed "gone")))
      ((initial input schedule).execute #[.instruction (.command .read)] none 1).2 := by
    rw [hcode]
    exact ⟨by decide, 1, rfl⟩
  exact ⟨hnames, run_disciplined hnames rfl hend⟩

end CommandLine

end TapeMachine
