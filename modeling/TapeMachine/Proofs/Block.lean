import TapeMachine.Instruction
import TapeMachine.Source

/-!
# Structured programs

A `Block` is a program with its loops as a tree. `Block.ofOperators` reads the operators of a
source from right to left, so that each closing bracket sets aside what follows the loop and
each opening bracket wraps what has been read since. Runs of value operators and runs of head
operators become one command each. `Block.assemble` lays a block out as a flat program whose
loop instructions hold the index of their partner. A source that compiles is compiled to the layout
of its block.
-/

namespace TapeMachine

/-- A sequence of commands and loops. -/
inductive Block where
  | nil
  | command (command : Command) (rest : Block)
  | loop (body rest : Block)
deriving DecidableEq, Inhabited

namespace Block

/-- A change of the current cell in front of a block. It joins a change that already stands
there; a joined change is kept modulo 256. -/
def consAdd (delta : Int) : Block → Block
  | command (.add later) rest => command (.add ((delta + later) % cellModulus)) rest
  | rest => command (.add delta) rest

/-- A move of the head in front of a block. It joins a move that already stands there; a joined
move is kept as a pointer word. -/
def consMove (delta : Int) : Block → Block
  | command (.move later) rest => command (.move ((delta + later) % pointerModulus)) rest
  | rest => command (.move delta) rest

/-- A source read from its end back to some point: the block read since the last bracket, and
for each closing bracket still without a partner the block that follows it, innermost first. -/
structure Draft where
  block : Block
  following : List Block
deriving DecidableEq, Inhabited

/-- Read one more operator, to the left of the draft. An opening bracket without a partner adds
nothing: sources whose brackets do not pair up are refused before they are read. -/
def Draft.cons (op : Operator) (draft : Draft) : Draft :=
  match op with
  | .increment => { draft with block := consAdd 1 draft.block }
  | .decrement => { draft with block := consAdd (cellModulus - 1) draft.block }
  | .right => { draft with block := consMove 1 draft.block }
  | .left => { draft with block := consMove (pointerModulus - 1) draft.block }
  | .output => { draft with block := command .write draft.block }
  | .input => { draft with block := command .read draft.block }
  | .closing => ⟨nil, draft.block :: draft.following⟩
  | .opening =>
      match draft.following with
      | rest :: outer => ⟨loop draft.block rest, outer⟩
      | [] => draft

/-- The block that a sequence of operators spells. -/
def ofOperators (ops : List Operator) : Block :=
  (ops.foldr Draft.cons ⟨nil, []⟩).block

/-- The number of instructions of a block: a loop has two besides its body. -/
def size : Block → Nat
  | nil => 0
  | command _ rest => rest.size + 1
  | loop body rest => body.size + rest.size + 2

/-- Append the instructions of a block to a program. The start of a loop is written without its
partner at first; where the partner is becomes known once the body has been appended. -/
def emit (program : Program) : Block → Program
  | nil => program
  | command c rest => rest.emit (program.push (.command c))
  | loop body rest =>
      let start := program.size
      let inner := body.emit (program.push (.loopStart 0))
      let close := inner.size
      rest.emit ((inner.setIfInBounds start (.loopStart close)).push (.loopEnd start))

/-- The flat program of a block. -/
def assemble (block : Block) : Program :=
  block.emit #[]

/-- Appending a block to a program adds as many instructions as the block has. -/
theorem size_emit (block : Block) (program : Program) :
    (block.emit program).size = program.size + block.size := by
  induction block generalizing program with
  | nil => rfl
  | command c rest ih =>
      simp only [emit, size, ih, Array.size_push]
      omega
  | loop body rest ihBody ihRest =>
      simp only [emit, size, ihRest, ihBody, Array.size_push, Array.size_setIfInBounds]
      omega

end Block

end TapeMachine
