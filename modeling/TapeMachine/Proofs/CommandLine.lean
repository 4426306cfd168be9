import TapeMachine.CommandLine
import TapeMachine.Proofs.Machine.InMemory
import TapeMachine.Proofs.Machine.Lockstep

/-!
# The command line and evaluation in memory

Running a source file between streams that never fail comes to the same as evaluating the source in
memory. The main theorem, `run_agrees`, says so for every path that is read as an argument, whatever
the file and the input hold.

The two executions use different consoles: one that prompts, flushes and keeps a trace of stream
calls, and one that does nothing of the kind. As long as no stream fails they answer every call
alike and have delivered the same bytes, `Console.lockstep_beside`, so the machines stay in
lockstep.
-/

namespace TapeMachine

namespace Console

/-- The first console stands between reliable streams, the second one is in memory. They have the
same input left and have delivered the same bytes. -/
inductive Beside : Console → Console → Prop where
  | mk (rest : List UInt8) (delivered : Array UInt8) (writes flushes : Nat)
      (events events' : Array StreamEvent) :
      Beside ⟨.stream (rest.map .byte) true, .stream .reliable writes flushes, delivered, events⟩
        ⟨.buffer rest, .buffer, delivered, events'⟩

/-- Flushing succeeds and delivers nothing. -/
theorem Beside.flush {console other : Console} (h : Beside console other) :
    ∃ flushed, console.flush = (.ok (), flushed) ∧ flushed.delivered = other.delivered := by
  obtain ⟨rest, delivered, writes, flushes, events, events'⟩ := h
  exact ⟨_, rfl, rfl⟩

/-- Between reliable streams a console answers every call as one in memory does. -/
theorem lockstep_beside : Device.Lockstep Beside := by
  constructor
  · rintro _ _ ⟨_ | ⟨value, rest⟩, delivered, writes, flushes, events, events'⟩
    · exact ⟨_, _, _, rfl, rfl, .mk [] _ _ _ _ _⟩
    · exact ⟨_, _, _, rfl, rfl, .mk rest _ _ _ _ _⟩
  · rintro value _ _ ⟨rest, delivered, writes, flushes, events, events'⟩
    -- a newline is followed by a flush of its own
    by_cases hnewline : value = 0x0A
    · subst hnewline
      exact ⟨_, _, _, rfl, rfl, .mk rest _ _ _ _ _⟩
    · refine ⟨.ok (), _, _, ?_, rfl, .mk rest (delivered.push value) (writes + 1) flushes
        (events.push (.wrote value)) events'⟩
      simp only [Device.write, writeByte, Schedule.reliable, hnewline, if_false]

end Console

namespace CommandLine

/-- The argument is read as the path of the source. -/
def IsPath (argument : String) : Prop :=
  grammar.read [argument] = .ok ⟨[], [("source", argument)]⟩

/-- An argument without a dash in front is read as a path. -/
theorem isPath_of_not_dash {argument : String}
    (h : Arguments.startsWith argument "-" = false) : IsPath argument := by
  have hseparator : argument ≠ "--" := by
    rintro rfl
    exact absurd h (by decide)
  simp [IsPath, Arguments.Grammar.read, Arguments.Grammar.tokens, Arguments.Grammar.classify, h,
    Arguments.consume, Arguments.State.fill, Arguments.fillPositionals, grammar]

/-- What the report of a run between streams has to do with the result of evaluating the source in
memory. -/
structure Report.Agrees (report : Report) (result : Except Failure (Array UInt8)) (source : Source)
    (input : List UInt8) : Prop where
  /-- The run exits with zero where there is a result, which is then the whole output. -/
  exit_zero_iff : report.ending = .exit 0 ↔ ∃ output, result = .ok output
  returned : ∀ output, result = .ok output →
    report.output = output ∧ report.text = "" ∧ report.errors = ""
  /-- The run complains about the source where it is refused, and calls no stream. -/
  refused_iff : ∀ message, (report.ending = .exit 1 ∧
      report.errors = "Parse error: " ++ message ++ "\n" ∧ report.events = #[]) ↔
    ∃ fault, compile source = .error fault ∧ fault.message = message
  /-- The run complains about the input where it is exhausted, after the same output. -/
  exhausted_iff : (report.ending = .exit 1 ∧
      report.errors = "Runtime error: Input exhausted\n") ↔
    result = .error (.faulted (.device .endOfInput))
  exhausted : result = .error (.faulted (.device .endOfInput)) →
    ∃ program final, compile source = .ok program ∧
      Machine.Ends program.code none
        (Machine.start (Tape.blank defaultTapeSize defaultTapeSize_pos) (Console.ofInput input))
        (.faulted (.device .endOfInput)) final ∧
      report.output = final.store.device.delivered
  unfinished_iff : report.ending = .unfinished ↔ result = .error .unfinished

variable {source : Source} {program : Program} {input : List UInt8}

/-- Executing a program between reliable streams comes to the same as executing it in memory. -/
theorem execute_reliable (patience : Nat) (program : Program) (input : List UInt8) :
    let report := execute patience program
      (Console.start (.stream (input.map .byte) true) (.stream .reliable 0 0))
    let machine := Machine.start (Tape.blank defaultTapeSize defaultTapeSize_pos)
      (Console.ofInput input)
    let result := machine.executeWithin patience program.code none
    (report.ending, report.errors) = endingOfOutcome result.1 ∧
      report.output = result.2.store.device.delivered ∧ report.text = "" := by
  have hstart : Machine.Alongside (Store.Alike Console.Beside)
      (Machine.start (Tape.blank defaultTapeSize defaultTapeSize_pos)
        (Console.start (.stream (input.map .byte) true) (.stream .reliable 0 0)))
      (Machine.start (Tape.blank defaultTapeSize defaultTapeSize_pos) (Console.ofInput input)) :=
    .mk 0 0 (.mk _ 0 (.mk input #[] 0 0 #[] #[]))
  obtain ⟨outcome, final, final', hexecute, hexecute', hafter⟩ :=
    hstart.execute Console.lockstep_beside.store program.code none patience
  obtain ⟨index, steps, tape, pointer, hbeside⟩ := hafter
  obtain ⟨flushed, hflush, hdelivered⟩ := hbeside.flush
  -- without a limit the fuel is the patience, on both sides
  simp only [execute, Machine.executeWithin, fuelFor, hexecute, hexecute', hflush]
  exact ⟨trivial, hdelivered, trivial⟩

/-- The complaint about a refused source names the fault and is no other complaint. -/
theorem malformed_eq_iff {fault : BracketFault} {message : String} :
    malformed fault = "Parse error: " ++ message ++ "\n" ↔ fault.message = message := by
  change "Parse error: " ++ fault.message ++ "\n" = _ ↔ _
  simp

/-- The complaint about a read with no input left. -/
theorem failed_endOfInput : failed .endOfInput = "Runtime error: Input exhausted\n" := by
  decide

/-- A complaint about a source is never one about its execution. -/
theorem parseError_ne_failed (message : String) (fault : ConsoleFault) :
    "Parse error: " ++ message ++ "\n" ≠ failed fault := by
  intro h
  have hsame : "Parse error: " ++ message ++ "\n" = "Runtime error: " ++ fault.message ++ "\n" := h
  have htext := congrArg String.toList hsame
  simp at htext

/-- A source that is refused is refused in the same words. -/
theorem agrees_of_refused {fault : BracketFault} (hrefused : compile source = .error fault) :
    (Report.early 1 "" (malformed fault)).Agrees (.error (.malformed fault)) source input := by
  have hcomplaint : malformed fault ≠ "Runtime error: Input exhausted\n" :=
    failed_endOfInput ▸ parseError_ne_failed fault.message .endOfInput
  constructor
  case refused_iff =>
    intro message
    simp [Report.early, malformed_eq_iff, hrefused]
  all_goals simp [Report.early, hcomplaint]

/-- A program that is executed between streams has the outcome that it has in memory. -/
theorem agrees_of_executed {report : Report} {outcome : Outcome ConsoleFault}
    {final : Machine Console} {patience : Nat} (hcompile : compile source = .ok program)
    (hexecute : (Machine.start (Tape.blank defaultTapeSize defaultTapeSize_pos)
      (Console.ofInput input)).executeWithin patience program.code none = (outcome, final))
    (hending : (report.ending, report.errors) = endingOfOutcome outcome)
    (houtput : report.output = final.store.device.delivered) (htext : report.text = "") :
    report.Agrees
      (match outcome.failure? with
      | some failure => .error failure
      | none => .ok final.store.device.delivered) source input := by
  obtain ⟨ending, output, text, errors, events, entries⟩ := report
  dsimp only at hending houtput htext
  subst houtput htext
  have hnotRefused (fault : BracketFault) : compile source ≠ .error fault := by
    rw [hcompile]
    exact nofun
  -- what is unfinished with this patience has not ended yet; all else is one of the ends in memory
  by_cases hunfinished : outcome = .unfinished
  · subst hunfinished
    cases hending
    constructor <;> simp [Outcome.failure?, hnotRefused]
  · have hend : Machine.Ends program.code none _ outcome final :=
      ⟨hunfinished, patience, hexecute⟩
    obtain rfl | ⟨bound, hlimit, -⟩ | ⟨rfl, -⟩ := Machine.ends_ofInput_cases hcompile hend
    · cases hending
      constructor <;> simp [Outcome.failure?, hnotRefused]
    · cases hlimit
    · obtain ⟨hcode, hcomplaint⟩ : ending = .exit 1 ∧ errors = failed .endOfInput :=
        Prod.mk.inj hending
      constructor
      case exhausted => exact fun _ ↦ ⟨program, final, hcompile, hend, rfl⟩
      case refused_iff =>
        intro message
        simp [hnotRefused, hcomplaint, (parseError_ne_failed message .endOfInput).symm]
      all_goals simp [Outcome.failure?, hcode, hcomplaint, failed_endOfInput]

/-- Running a source between reliable streams comes to the same as evaluating it in memory. -/
theorem runSource_agrees {memory : Nat} (hroom : defaultTapeSize ≤ memory) (patience : Nat)
    (source : Source) (input : List UInt8) :
    (runSource patience source (input.map .byte) .reliable).Agrees
      (evaluate patience memory source input defaultTapeSize none).1 source input := by
  rcases hcompile : compile source with fault | program
  · have hrun : runSource patience source (input.map .byte) .reliable =
        .early 1 "" (malformed fault) := by
      simp only [runSource, hcompile]
    have hevaluate : (evaluate patience memory source input defaultTapeSize none).1 =
        .error (.malformed fault) := by
      simp only [evaluate, hcompile]
    rw [hrun, hevaluate]
    exact agrees_of_refused hcompile
  · have hreliable := execute_reliable patience program input
    rw [evaluate_eq hcompile defaultTapeSize_pos (by decide) hroom patience input none]
    simp only [runSource, hcompile]
    dsimp only at hreliable
    generalize hexecute : Machine.executeWithin patience program.code none _ = result
      at hreliable ⊢
    obtain ⟨outcome, final⟩ := result
    obtain ⟨hending, houtput, htext⟩ := hreliable
    exact agrees_of_executed hcompile hexecute hending houtput htext

/-- Running a source file between streams that never fail agrees with evaluating the source in
memory: it exits with code zero and the same output where there is a result, complains about the
source where it is refused and about the input where it is exhausted, and goes on without end
where evaluating it does. -/
theorem run_agrees {path : String} {tree : FileTree} {source : Source} {memory : Nat}
    (hpath : IsPath path) (hfile : tree.find (Path.ofText path) = .file source)
    (hroom : defaultTapeSize ≤ memory) (input : List UInt8) :
    (∀ patience, (run patience [path] tree (input.map .byte) .reliable).Agrees
      (evaluate patience memory source input defaultTapeSize none).1 source input) ∧
    ((∀ patience, (run patience [path] tree (input.map .byte) .reliable).ending = .unfinished) ↔
      ∀ patience, (evaluate patience memory source input defaultTapeSize none).1 =
        .error .unfinished) := by
  have hrun (patience : Nat) : run patience [path] tree (input.map .byte) .reliable =
      runSource patience source (input.map .byte) .reliable := by
    have hgiven : (([("source", path)].lookup "source").getD "") = path := rfl
    rw [run, show grammar.read [path] = .ok ⟨[], [("source", path)]⟩ from hpath]
    simp only [hgiven, hfile]
  have hagrees (patience : Nat) : (run patience [path] tree (input.map .byte) .reliable).Agrees
      (evaluate patience memory source input defaultTapeSize none).1 source input := by
    rw [hrun]
    exact runSource_agrees hroom patience source input
  exact ⟨hagrees, forall_congr' fun patience ↦ (hagrees patience).unfinished_iff⟩

/-- A file outside the working directory, named from the root, and input for the one read in it. -/
theorem run_agrees_echo :
    let tree : FileTree := ⟨["home"], [(["tmp", "p.b"], [0x2C, 0x2E])], []⟩
    IsPath "/tmp/p.b" ∧ tree.find (Path.ofText "/tmp/p.b") = .file [0x2C, 0x2E] ∧
      ∀ patience, (run patience ["/tmp/p.b"] tree [.byte 0x41] .reliable).Agrees
        (evaluate patience defaultTapeSize [0x2C, 0x2E] [0x41] defaultTapeSize none).1
        [0x2C, 0x2E] [0x41] := by
  intro tree
  have hpath : IsPath "/tmp/p.b" := isPath_of_not_dash (by decide)
  have hfile : tree.find (Path.ofText "/tmp/p.b") = .file [0x2C, 0x2E] := by decide
  exact ⟨hpath, hfile, (run_agrees hpath hfile (Nat.le_refl _) [0x41]).1⟩

/-- A file whose name looks like a switch can be evaluated but is not run. -/
theorem dash_is_no_path :
    let tree : FileTree := ⟨["home"], [(["home", "-x"], [])], []⟩
    tree.find (Path.ofText "-x") = .file [] ∧
      (evaluate 1 defaultTapeSize [] [] defaultTapeSize none).1 = .ok #[] ∧
      ∀ patience, (run patience ["-x"] tree [] .reliable).ending = .exit 2 := by
  refine ⟨by decide, ?_, fun _ ↦ rfl⟩
  have hcompile : compile [] = .ok #[] := rfl
  rw [evaluate_eq hcompile defaultTapeSize_pos (by decide) (Nat.le_refl _)]
  simp [Machine.executeWithin, fuelFor, Machine.execute, Machine.start, Program.code,
    Outcome.failure?, Console.ofInput, Console.start]

end CommandLine

end TapeMachine
