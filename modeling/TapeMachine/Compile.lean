import TapeMachine.Instruction
import TapeMachine.Source
import TapeMachine.Source.Brackets

/-!
# Compiling a source

A source is compiled in one pass from left to right. A command is appended to the program so far, or
it joins the command at the end of it. An opening bracket appends the start of a loop without its
partner, and the closing bracket writes the partner into it. The pass stops at the first closing
bracket without a partner; at the end of the source it names the innermost bracket still open.
-/

namespace TapeMachine

/-- The one command that two commands side by side are read as, if they join. The delta of a joint
command is kept modulo 256 or as a pointer word. -/
def Command.join? : Command → Command → Option Command
  | add delta, add later => some (add ((delta + later) % cellModulus))
  | move delta, move later => some (move ((delta + later) % pointerModulus))
  | _, _ => none

/-- Append a command to a program. It joins the command that stands at the end, if it can. -/
def Program.pushCommand (program : Program) (c : Command) : Program :=
  match program.back? with
  | some (.command last) =>
      match last.join? c with
      | some joint => program.pop.push (.command joint)
      | none => program.push (.command c)
  | _ => program.push (.command c)

/-- A loop that is still open: the index of its start in the program, and the position of its
bracket in the source. -/
structure OpenLoop where
  start : Nat
  position : Nat
deriving DecidableEq, Inhabited

/-- A source read from its start up to some point: the program so far and the loops that are open
there, innermost first. -/
structure Scan where
  program : Program
  opened : List OpenLoop
deriving DecidableEq, Inhabited

namespace Scan

/-- Append a command. -/
def pushCommand (scan : Scan) (c : Command) : Scan :=
  { scan with program := scan.program.pushCommand c }

/-- Read one more operator, which stands at `position`. -/
def step (position : Nat) (scan : Scan) : Operator → Except BracketFault Scan
  | .increment => .ok (scan.pushCommand (.add 1))
  | .decrement => .ok (scan.pushCommand (.add (cellModulus - 1)))
  | .right => .ok (scan.pushCommand (.move 1))
  | .left => .ok (scan.pushCommand (.move (pointerModulus - 1)))
  | .output => .ok (scan.pushCommand .write)
  | .input => .ok (scan.pushCommand .read)
  | .opening =>
      .ok ⟨scan.program.push (.loopStart 0), ⟨scan.program.size, position⟩ :: scan.opened⟩
  | .closing =>
      match scan.opened with
      | [] => .error (.unopened position)
      | loop :: outer =>
          let close := scan.program.size
          let paired := scan.program.setIfInBounds loop.start (.loopStart close)
          .ok ⟨paired.push (.loopEnd loop.start), outer⟩

/-- The program of a source that has been read to its end. -/
def finish (scan : Scan) : Except BracketFault Program :=
  match scan.opened with
  | [] => .ok scan.program
  | loop :: _ => .error (.unclosed loop.position)

end Scan

/-- Read the rest of a source, which starts at `position`, and finish its program. Bytes that are no
operators are passed over. -/
def compileFrom (position : Nat) (scan : Scan) : Source → Except BracketFault Program
  | [] => scan.finish
  | b :: rest =>
      match Operator.ofByte? b with
      | none => compileFrom (position + 1) scan rest
      | some op =>
          match scan.step position op with
          | .error fault => .error fault
          | .ok next => compileFrom (position + 1) next rest

/-- The program of a source, or the fault in its brackets. -/
def compile (source : Source) : Except BracketFault Program :=
  compileFrom 0 ⟨#[], []⟩ source

end TapeMachine
