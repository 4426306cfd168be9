import Mathlib.Data.List.Forall2
import Mathlib.Data.List.SplitBy
import Mathlib.Order.Bounds.Basic
import TapeMachine.Proofs.Block.Pairing
import TapeMachine.Proofs.Source.Acceptance

/-!
# Sources as tokens

What a source compiles to, said in two phases and without a stack. The operators are cut into
tokens, each a run of operators that change the cell, a run of operators that move the head, or one
other operator. Then every token stands for one instruction, and the partner of a bracket is found
by counting the brackets behind it.

The main theorem, `compile_tokens`, says that compilation gives exactly these instructions.
-/

namespace TapeMachine

namespace Operator

/-- The operator changes the current cell. -/
def changes : Operator → Bool
  | increment | decrement => true
  | right | left | output | input | opening | closing => false

/-- The operator moves the head. -/
def moves : Operator → Bool
  | right | left => true
  | increment | decrement | output | input | opening | closing => false

/-- Two operators that stand in one run where they are neighbours. -/
def sameRun (first second : Operator) : Bool :=
  first.changes && second.changes || first.moves && second.moves

end Operator

/-- A token: the operators of a run, or one operator by itself. -/
abbrev Token :=
  List Operator

/-- The tokens of a source: its operators in order, cut wherever two neighbours do not stand in one
run. -/
def Source.tokens (source : Source) : List Token :=
  source.operators.splitBy Operator.sameRun

namespace Token

/-- What a run changes the cell by: its increments less its decrements, as a cell value. -/
def change (token : Token) : Command :=
  .add (((token.count .increment : Int) - token.count .decrement) % cellModulus)

/-- How far a run moves the head: its steps to the right less those to the left, as a pointer
word. -/
def move (token : Token) : Command :=
  .move (((token.count .right : Int) - token.count .left) % pointerModulus)

/-- The token stands for the instruction. The targets of the loop instructions are left open, since
they depend on the tokens around. -/
inductive Denotes : Token → Instruction → Prop where
  | change {token : Token} (hne : token ≠ []) (h : ∀ op ∈ token, op.changes = true) :
      Denotes token (.command token.change)
  | move {token : Token} (hne : token ≠ []) (h : ∀ op ∈ token, op.moves = true) :
      Denotes token (.command token.move)
  | write : Denotes [.output] (.command .write)
  | read : Denotes [.input] (.command .read)
  | loopStart (close : Int) : Denotes [.opening] (.loopStart close)
  | loopEnd (start : Int) : Denotes [.closing] (.loopEnd start)

/-- The bracket at index `i` is closed at index `j`, the least one behind `i` such that the tokens
from `i` to `j` hold as many closing brackets as opening ones. -/
def ClosedAt (tokens : List Token) (i j : Nat) : Prop :=
  IsLeast {k | i < k ∧ k < tokens.length ∧
    ((tokens.take (k + 1)).drop i).count [.closing] =
      ((tokens.take (k + 1)).drop i).count [.opening]} j

/-! ## One instruction for each token -/

variable {op first : Operator} {ops : List Operator} {token : Token} {tokens : List Token}
  {c d joint : Command} {block : Block} {base : Nat}

/-- An operator that is not a bracket is a token that stands for its command. -/
theorem denotes_singleton (hc : op.command? = some c) : Denotes [op] (.command c) := by
  cases op <;> cases hc
  case output => exact .write
  case input => exact .read
  case increment | decrement => exact .change (by simp) (by simp [Operator.changes])
  case right | left => exact .move (by simp) (by simp [Operator.moves])

/-- An operator in front of a run joins it as its command joins the command of the run. -/
theorem Denotes.cons (h : Denotes token (.command d)) (hc : op.command? = some c)
    (hjoin : c.join? d = some joint) : Denotes (op :: token) (.command joint) := by
  cases h with
  | write | read => cases c <;> cases hjoin
  | change hne hrun =>
      have hop : op.changes = true := by
        cases op <;> cases hc <;> first | rfl | cases hjoin
      have hjoint : joint = Token.change (op :: token) := by
        cases op <;> cases hop <;> cases hc <;> cases hjoin <;>
          simp only [Token.change, cellModulus, List.count_cons_self, Command.add.injEq] <;>
          rw [List.count_cons_of_ne (by decide)] <;> omega
      rw [hjoint]
      exact .change (by simp) (List.forall_mem_cons.mpr ⟨hop, hrun⟩)
  | move hne hrun =>
      have hop : op.moves = true := by
        cases op <;> cases hc <;> first | rfl | cases hjoin
      have hjoint : joint = Token.move (op :: token) := by
        cases op <;> cases hop <;> cases hc <;> cases hjoin <;>
          simp only [Token.move, pointerModulus, List.count_cons_self, Command.move.injEq] <;>
          rw [List.count_cons_of_ne (by decide)] <;> omega
      rw [hjoint]
      exact .move (by simp) (List.forall_mem_cons.mpr ⟨hop, hrun⟩)

/-- An operator in front of a token stands in one run with it exactly when its command joins the
command of the token. -/
theorem Denotes.sameRun_iff {run : List Operator} (h : Denotes (first :: run) (.command d))
    (hc : op.command? = some c) : op.sameRun first = true ↔ c.Joins d := by
  cases h with
  | write | read => cases op <;> cases hc <;> simp [Operator.sameRun, Operator.changes,
      Operator.moves, Command.Joins]
  | change _ hrun =>
      have hfirst := hrun first List.mem_cons_self
      cases first <;> cases hfirst <;> cases op <;> cases hc <;>
        simp [Operator.sameRun, Operator.changes, Operator.moves, Command.Joins, Token.change]
  | move _ hrun =>
      have hfirst := hrun first List.mem_cons_self
      cases first <;> cases hfirst <;> cases op <;> cases hc <;>
        simp [Operator.sameRun, Operator.changes, Operator.moves, Command.Joins, Token.move]

/-- The first token of a source starts with its first operator. -/
theorem exists_splitBy_cons (first : Operator) (ops : List Operator) :
    ∃ run tokens, (first :: ops).splitBy Operator.sameRun = (first :: run) :: tokens := by
  obtain ⟨hflatten, hne, -⟩ :=
    List.splitBy_eq_iff.mp (Eq.refl ((first :: ops).splitBy Operator.sameRun))
  cases hsplit : (first :: ops).splitBy Operator.sameRun with
  | nil => simp at hsplit
  | cons token tokens =>
      rw [hsplit] at hflatten hne
      cases token with
      | nil => simp at hne
      | cons other run =>
          obtain ⟨rfl, -⟩ := List.cons.inj hflatten
          exact ⟨run, tokens, rfl⟩

/-- An operator that stands in one run with the first token becomes a part of it. -/
theorem splitBy_cons_of_sameRun {run : List Operator}
    (h : ops.splitBy Operator.sameRun = (first :: run) :: tokens) (hsame : op.sameRun first) :
    (op :: ops).splitBy Operator.sameRun = (op :: first :: run) :: tokens := by
  obtain ⟨hflatten, hne, hchains, hapart⟩ := List.splitBy_eq_iff.mp h
  refine List.splitBy_eq_iff.mpr ⟨by rw [hflatten]; rfl, by simpa using hne, ?_, ?_⟩
  · obtain ⟨hfirst, hothers⟩ := List.forall_mem_cons.mp hchains
    exact List.forall_mem_cons.mpr ⟨List.isChain_cons_cons.mpr ⟨hsame, hfirst⟩, hothers⟩
  · rw [List.isChain_cons] at hapart ⊢
    obtain ⟨hfirst, hothers⟩ := hapart
    refine ⟨fun token htoken ↦ ?_, hothers⟩
    obtain ⟨_, hnext, hlast⟩ := hfirst token htoken
    exact ⟨by simp, hnext, by simpa using hlast⟩

/-- An operator that stands in no run with what follows is a token by itself. -/
theorem splitBy_cons_of_not_sameRun (h : ∀ first ∈ ops.head?, op.sameRun first = false) :
    (op :: ops).splitBy Operator.sameRun = [op] :: ops.splitBy Operator.sameRun := by
  have hsplit : ([op] ++ ops).splitBy Operator.sameRun =
      [op].splitBy Operator.sameRun ++ ops.splitBy Operator.sameRun :=
    List.splitBy_append (by simpa using h)
  exact hsplit

/-- Where the tokens of operators stand for the instructions of a block, one more operator in front
keeps this so. -/
theorem denotes_cons (hc : op.command? = some c)
    (h : ∀ base, List.Forall₂ Denotes (ops.splitBy Operator.sameRun) (block.layout base))
    (base : Nat) : List.Forall₂ Denotes ((op :: ops).splitBy Operator.sameRun)
      ((Block.cons c block).layout base) := by
  obtain ⟨d, tail, joint, rfl, hjoin, hcons⟩ | ⟨hstart, hcons⟩ := Block.cons_cases c block
  · have hjoins : c.Joins d := by
      by_contra hnot
      rw [Command.join?_eq_none_iff.mpr hnot] at hjoin
      cases hjoin
    cases ops with
    | nil => cases h base
    | cons first ops =>
        obtain ⟨run, tokens, hsplit⟩ := exists_splitBy_cons first ops
        rw [hsplit] at h
        cases h base with
        | cons hfirst hothers =>
            rw [hcons, splitBy_cons_of_sameRun hsplit ((hfirst.sameRun_iff hc).mpr hjoins)]
            exact .cons (hfirst.cons hc hjoin) hothers
  · have hapart : ∀ first ∈ ops.head?, op.sameRun first = false := by
      intro first hmem
      obtain ⟨others, rfl⟩ := List.head?_eq_some_iff.mp hmem
      obtain ⟨run, tokens, hsplit⟩ := exists_splitBy_cons first others
      rw [hsplit] at h
      cases block with
      | nil => cases h 0
      | command d tail =>
          cases h 0 with
          | cons hfirst _ =>
              rw [← Bool.not_eq_true, hfirst.sameRun_iff hc]
              exact hstart
      | loop body rest =>
          cases h 0 with
          | cons hfirst _ =>
              cases hfirst
              cases op <;> rfl
    rw [hcons, splitBy_cons_of_not_sameRun hapart]
    exact .cons (denotes_singleton hc) (h (base + 1))

/-- The tokens of balanced operators stand for the instructions of the block that they spell. -/
theorem denotes_layout (h : Balanced Operator.role ops) (base : Nat) :
    List.Forall₂ Denotes (ops.splitBy Operator.sameRun)
      ((Block.prepend ops .nil).layout base) := by
  induction h generalizing base with
  | nil => exact .nil
  | plain hop hrest ih =>
      obtain ⟨c, hc⟩ := Operator.exists_command? hop
      rw [Block.prepend_cons hc hrest]
      exact denotes_cons hc ih base
  | @pair a z body rest ha hbody hz hrest ihBody ihRest =>
      obtain rfl := Operator.eq_opening_of_role ha
      obtain rfl := Operator.eq_closing_of_role hz
      have hclosing : (Operator.closing :: rest).splitBy Operator.sameRun =
          [.closing] :: rest.splitBy Operator.sameRun :=
        splitBy_cons_of_not_sameRun fun _ _ ↦ rfl
      have hinner : (body ++ .closing :: rest).splitBy Operator.sameRun =
          body.splitBy Operator.sameRun ++ (.closing :: rest).splitBy Operator.sameRun :=
        List.splitBy_append_cons rest fun last _ ↦ by cases last <;> rfl
      rw [Block.prepend_pair hbody hrest, splitBy_cons_of_not_sameRun fun _ _ ↦ rfl, hinner,
        hclosing]
      exact .cons (.loopStart _) (List.rel_append (ihBody _) (.cons (.loopEnd _) (ihRest _)))

/-! ## Counting brackets -/

variable {instructions : List Instruction} {i j : Nat}

/-- Tokens open and close as many brackets as the instructions that they stand for. -/
theorem surplus_of_denotes (h : List.Forall₂ Denotes tokens instructions) :
    surplus Instruction.role instructions =
      (tokens.count [.opening] : Int) - tokens.count [.closing] := by
  induction h with
  | nil => rfl
  | @cons token _ _ _ hfirst _ ih =>
      rw [surplus_cons, ih]
      have hplain : ∀ op : Operator, op ∉ token → token ≠ [op] := by
        intro op hop heq
        rw [heq] at hop
        exact hop List.mem_cons_self
      cases hfirst with
      | write | read | loopStart | loopEnd =>
          simp [Instruction.role, Role.weight] <;> omega
      | change _ hrun | move _ hrun =>
          have hopening : Operator.opening ∉ token := fun hmem ↦ Bool.false_ne_true (hrun _ hmem)
          have hclosing : Operator.closing ∉ token := fun hmem ↦ Bool.false_ne_true (hrun _ hmem)
          rw [List.count_cons_of_ne (hplain _ hopening), List.count_cons_of_ne (hplain _ hclosing)]
          exact Int.zero_add _

/-- The token of an opening bracket is closed at the token of its partner. -/
theorem closedAt_of_partners (h : List.Forall₂ Denotes tokens instructions)
    (hpartners : Partners Instruction.role instructions i j) : ClosedAt tokens i j := by
  have hslice : ∀ k, surplus Instruction.role ((instructions.take (k + 1)).drop i) =
      (((tokens.take (k + 1)).drop i).count [.opening] : Int) -
        ((tokens.take (k + 1)).drop i).count [.closing] := by
    intro k
    exact surplus_of_denotes (List.forall₂_drop i (List.forall₂_take (k + 1) h))
  obtain ⟨-, z, hj, -⟩ := hpartners.getElem?
  obtain ⟨hlt, -⟩ := List.getElem?_eq_some_iff.mp hj
  rw [← h.length_eq] at hlt
  refine ⟨⟨hpartners.lt, hlt, ?_⟩, ?_⟩
  · have hclosed := hpartners.surplus_eq
    rw [hslice j] at hclosed
    omega
  · intro k hk
    obtain ⟨hik, -, hcount⟩ := hk
    by_contra hbefore
    have hopen := hpartners.surplus_pos (Nat.le_of_lt hik) (Nat.lt_of_not_le hbefore)
    rw [hslice k] at hopen
    omega

/-- A token stands for the instruction at its index. -/
theorem exists_instruction (h : List.Forall₂ Denotes tokens instructions)
    (htoken : tokens[i]? = some token) :
    ∃ instruction, instructions[i]? = some instruction ∧ Denotes token instruction := by
  obtain ⟨hlt, rfl⟩ := List.getElem?_eq_some_iff.mp htoken
  have hlt' : i < instructions.length := by rwa [← h.length_eq]
  exact ⟨_, List.getElem?_eq_getElem hlt', h.get hlt hlt'⟩

/-- An instruction is what the token at its index stands for. -/
theorem exists_token {instruction : Instruction} (h : List.Forall₂ Denotes tokens instructions)
    (hinstruction : instructions[i]? = some instruction) :
    ∃ token, tokens[i]? = some token ∧ Denotes token instruction := by
  obtain ⟨hlt, rfl⟩ := List.getElem?_eq_some_iff.mp hinstruction
  have hlt' : i < tokens.length := by rwa [h.length_eq]
  exact ⟨_, List.getElem?_eq_getElem hlt', h.get hlt' hlt⟩

/-- The token of an opening bracket stands for the start of a loop only. -/
theorem Denotes.exists_loopStart {instruction : Instruction}
    (h : Denotes [.opening] instruction) : ∃ close, instruction = .loopStart close := by
  cases h with
  | change _ hrun | move _ hrun => cases hrun _ List.mem_cons_self
  | loopStart close => exact ⟨close, rfl⟩

/-- The token of a closing bracket stands for the end of a loop only. -/
theorem Denotes.exists_loopEnd {instruction : Instruction}
    (h : Denotes [.closing] instruction) : ∃ start, instruction = .loopEnd start := by
  cases h with
  | change _ hrun | move _ hrun => cases hrun _ List.mem_cons_self
  | loopEnd start => exact ⟨start, rfl⟩

end Token

/-- What a source compiles to.

Every token of the source stands for one instruction, in order. An opening bracket is closed at the
token that counting brackets finds, a closing bracket, and each of the two instructions names the
index of the other. Every closing bracket closes an opening one in this way. -/
theorem compile_tokens {source : Source} {program : Program}
    (hcompile : compile source = .ok program) :
    List.Forall₂ Token.Denotes source.tokens program.toList ∧
    (∀ i, source.tokens[i]? = some [.opening] →
      ∃ j, Token.ClosedAt source.tokens i j ∧ source.tokens[j]? = some [.closing] ∧
        program[i]? = some (.loopStart j) ∧ program[j]? = some (.loopEnd i)) ∧
    ∀ j, source.tokens[j]? = some [.closing] →
      ∃ i, source.tokens[i]? = some [.opening] ∧ Token.ClosedAt source.tokens i j := by
  obtain ⟨hbalanced, rfl⟩ := compile_eq_ok_iff.mp hcompile
  have hpaired := Block.paired_assemble (Block.ofOperators source.operators)
  have hdenotes : List.Forall₂ Token.Denotes source.tokens
      (Block.ofOperators source.operators).assemble.toList := by
    rw [Block.toList_assemble]
    exact Token.denotes_layout (Source.balanced_operators hbalanced) 0
  refine ⟨hdenotes, fun i hi ↦ ?_, fun j hj ↦ ?_⟩
  · obtain ⟨instruction, hstart, hi'⟩ := Token.exists_instruction hdenotes hi
    obtain ⟨close, rfl⟩ := hi'.exists_loopStart
    rw [Array.getElem?_toList] at hstart
    obtain ⟨j, rfl, hend, hpartners⟩ := hpaired.exists_loopEnd hstart
    obtain ⟨token, hj, hj'⟩ := Token.exists_token hdenotes (Array.getElem?_toList.trans hend)
    cases hj'
    exact ⟨j, Token.closedAt_of_partners hdenotes hpartners, hj, hstart, hend⟩
  · obtain ⟨instruction, hend, hj'⟩ := Token.exists_instruction hdenotes hj
    obtain ⟨start, rfl⟩ := hj'.exists_loopEnd
    rw [Array.getElem?_toList] at hend
    obtain ⟨i, rfl, hstart, hpartners⟩ := hpaired.exists_loopStart hend
    obtain ⟨token, hi, hi'⟩ := Token.exists_token hdenotes (Array.getElem?_toList.trans hstart)
    cases hi'
    exact ⟨i, hi, Token.closedAt_of_partners hdenotes hpartners⟩

/-- A comment inside a run does not cut it, and of two brackets that are open the inner one is
closed first. -/
theorem compile_tokens_nested :
    let source := Source.ofText "+-x+[>[<]]"
    let program : Program :=
      #[.command (.add 1), .loopStart 6, .command (.move 1), .loopStart 5,
        .command (.move (pointerModulus - 1)), .loopEnd 3, .loopEnd 1]
    source.tokens[0]? = some [.increment, .decrement, .increment] ∧
      compile source = .ok program ∧ Token.ClosedAt source.tokens 1 6 := by
  intro source program
  have hcompile : compile source = .ok program := rfl
  obtain ⟨j, hclosed, -, hstart, -⟩ := (compile_tokens hcompile).2.1 1 rfl
  obtain rfl : j = 6 := by
    have htarget : (6 : Int) = j := by
      injection Option.some.inj hstart
    omega
  exact ⟨rfl, hcompile, hclosed⟩

end TapeMachine
