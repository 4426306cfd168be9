import TapeMachine.Proofs.Block.Layout
import TapeMachine.Proofs.Source.Acceptance

/-!
# Sources side by side

Compilation is compositional. The program of two sources side by side is `Program.weld` of their
programs: the targets of the second one are moved on, and where the seam runs through a run of
operators its two halves become one command. The program of a source in brackets is
`Program.enclose` of its program. The main theorem is `compile_compositional`.

On blocks the same is done by `Block.weld`, which is `Block.append` up to the commands at the seam,
`Block.welds_weld`.
-/

namespace TapeMachine

/-- The instruction as it is in a program that starts at the index `base` and not at zero. -/
def Instruction.relocate (base : Int) : Instruction → Instruction
  | command c => command c
  | loopStart close => loopStart (close + base)
  | loopEnd start => loopEnd (start + base)

namespace Program

/-- The program as it is where it starts at the index `base`. -/
def relocate (base : Int) (program : Program) : Program :=
  program.map (Instruction.relocate base)

/-- The one command that stands for the end of the first program and the start of the second, if
commands stand there that join. -/
def seam? (first second : Program) : Option Command :=
  match first.back?, second[0]? with
  | some (Instruction.command c), some (Instruction.command d) => c.join? d
  | _, _ => none

/-- The second program behind the first. Two commands that join at the seam become one. -/
def weld (first second : Program) : Program :=
  match first.seam? second with
  | none => first ++ relocate first.size second
  | some joint => first.pop.push (.command joint) ++ relocate (first.size - 1) (second.extract 1)

/-- The program as the body of a loop. -/
def enclose (body : Program) : Program :=
  #[.loopStart (body.size + 1)] ++ relocate 1 body ++ #[.loopEnd 0]

end Program

namespace Block

/-- A layout that starts elsewhere is the same layout relocated. -/
theorem map_relocate_layout (block : Block) (base shift : Nat) :
    (block.layout base).map (Instruction.relocate shift) = block.layout (base + shift) := by
  induction block generalizing base with
  | nil => rfl
  | command c rest ih =>
      rw [layout, layout, List.map_cons, ih, Nat.add_right_comm]
      rfl
  | loop body rest ihBody ihRest =>
      have hclose : ((base + body.size + 1 : Nat) : Int) + shift =
          (base + shift + body.size + 1 : Nat) := by omega
      have hstart : (base : Int) + shift = (base + shift : Nat) := by omega
      have hbehind : base + body.size + 2 + shift = base + shift + body.size + 2 := by omega
      rw [layout, layout, List.map_cons, List.map_append, List.map_cons, ihBody, ihRest,
        Instruction.relocate, Instruction.relocate, hclose, hstart, hbehind,
        Nat.add_right_comm base 1]

/-! ## One block behind the other -/

/-- The second block behind the first. -/
def append : Block → Block → Block
  | nil, later => later
  | command c rest, later => command c (rest.append later)
  | loop body rest, later => loop body (rest.append later)

variable {first second rest : Block} {c d e joint : Command}

/-- The second block is laid out behind the first. -/
theorem layout_append (first second : Block) (base : Nat) :
    (first.append second).layout base =
      first.layout base ++ second.layout (base + first.size) := by
  induction first generalizing base with
  | nil => rfl
  | command c rest ih =>
      rw [append, layout, layout, ih, size, Nat.add_assoc, Nat.add_comm 1]
      rfl
  | loop body rest _ ih =>
      have hbehind : base + body.size + 2 + rest.size = base + (body.size + rest.size + 2) := by
        omega
      rw [append, layout, layout, ih, size, hbehind, List.cons_append, List.append_assoc,
        List.cons_append]

/-- Nothing ends with a command. -/
theorem append_command_ne_nil (front : Block) (c : Command) (tail : Block) :
    front.append (command c tail) ≠ nil := by
  cases front <;> exact nofun

/-- A block whose layout ends with a command ends with this command. -/
theorem exists_eq_append_of_getLast? {base : Nat}
    (h : (first.layout base).getLast? = some (.command c)) :
    ∃ front : Block, first = front.append (command c nil) := by
  induction first generalizing base with
  | nil => cases h
  | command d rest ih =>
      cases hrest : (rest.layout (base + 1)).getLast? with
      | none =>
          rw [layout, List.getLast?_cons, hrest] at h
          have hnil : rest = nil := by
            cases rest with
            | nil => rfl
            | command | loop => simp [layout] at hrest
          cases h
          rw [hnil]
          exact ⟨nil, rfl⟩
      | some last =>
          rw [layout, List.getLast?_cons, hrest] at h
          obtain ⟨front, rfl⟩ := ih (hrest.trans h)
          exact ⟨command d front, rfl⟩
  | loop body rest _ ih =>
      rw [layout, List.getLast?_cons, List.getLast?_append, List.getLast?_cons] at h
      cases hrest : (rest.layout (base + body.size + 2)).getLast? with
      | none =>
          rw [hrest] at h
          cases h
      | some last =>
          rw [hrest] at h
          obtain ⟨front, rfl⟩ := ih (hrest.trans h)
          exact ⟨loop body front, rfl⟩

/-! ## Commands joined at the seam -/

/-- The second block behind the first, with every command joined with what it joins. -/
def weld : Block → Block → Block
  | nil, later => later
  | command c rest, later => cons c (rest.weld later)
  | loop body rest, later => loop body (rest.weld later)

/-- A command in front goes on in front of the welded block. -/
theorem weld_cons (c : Command) (rest later : Block) :
    (cons c rest).weld later = cons c (rest.weld later) := by
  obtain ⟨d, tail, joint, rfl, hjoin, hcons⟩ | ⟨_, hcons⟩ := cons_cases c rest
  · rw [hcons, weld, weld, cons_cons_of_join? hjoin]
  · rw [hcons, weld]

/-- Balanced operators in front of a block are read by themselves and welded to it. -/
theorem prepend_eq_weld {ops : List Operator} (h : Balanced Operator.role ops) (later : Block) :
    prepend ops later = (prepend ops nil).weld later := by
  induction h with
  | nil => rfl
  | plain hop hrest ih =>
      obtain ⟨c, hc⟩ := Operator.exists_command? hop
      rw [prepend_cons hc hrest, prepend_cons hc hrest, weld_cons, ih]
  | pair ha hbody hz hrest _ ih =>
      obtain rfl := Operator.eq_opening_of_role ha
      obtain rfl := Operator.eq_closing_of_role hz
      rw [prepend_pair hbody hrest, prepend_pair hbody hrest, weld, ih]

/-- Balanced operators side by side spell two blocks that are welded. -/
theorem ofOperators_append {ops ops' : List Operator} (h : Balanced Operator.role ops)
    (h' : Balanced Operator.role ops') :
    ofOperators (ops ++ ops') = (ofOperators ops).weld (ofOperators ops') := by
  have hlater : ops'.foldr Draft.cons ⟨nil, []⟩ = ⟨ofOperators ops', []⟩ :=
    foldr_cons_of_balanced h' ⟨nil, []⟩
  rw [ofOperators, List.foldr_append, hlater]
  exact prepend_eq_weld h _

/-- What stands behind the first command has no influence on how a block starts, and neither has
joining that command with another one. -/
theorem startsLike_append_of_join? (front tail : Block) (hjoin : c.join? d = some joint) :
    (front.append (command joint tail)).StartsLike e ↔
      (front.append (command c nil)).StartsLike e := by
  cases front with
  | nil => exact Command.joins_iff_of_join? hjoin
  | command | loop => rfl

/-- How a block is welded to another: the commands at the seam are joined where they join, and
nothing is joined otherwise. -/
inductive Welds : Block → Block → Block → Prop where
  | joined (front tail : Block) {c d joint : Command} (hjoin : c.join? d = some joint) :
      Welds (front.append (command c nil)) (command d tail) (front.append (command joint tail))
  | apart {first second : Block}
      (h : ∀ (front : Block) c, first = front.append (command c nil) → ¬ second.StartsLike c) :
      Welds first second (first.append second)

/-- What is welded to the rest of a normal block goes on behind its command. -/
theorem Welds.behind_command {whole : Block} (h : Welds rest second whole) (hne : rest ≠ nil)
    (hstart : ¬ rest.StartsLike e) : Welds (command e rest) second (cons e whole) := by
  cases h with
  | joined front tail hjoin =>
      rw [← startsLike_append_of_join? front tail hjoin] at hstart
      rw [cons_of_not_startsLike hstart]
      exact .joined (command e front) tail hjoin
  | apart hapart =>
      have hcons : cons e (rest.append second) = (command e rest).append second := by
        cases rest with
        | nil => exact absurd rfl hne
        | command | loop => exact cons_of_not_startsLike hstart
      rw [hcons]
      refine .apart fun front c heq ↦ ?_
      cases front with
      | nil =>
          injection heq with _ hnil
          exact absurd hnil hne
      | command _ front => exact hapart front c (by injection heq)
      | loop => cases heq

/-- What is welded to the rest of a block goes on behind its loop. -/
theorem Welds.behind_loop {whole : Block} (h : Welds rest second whole) (body : Block) :
    Welds (loop body rest) second (loop body whole) := by
  cases h with
  | joined front tail hjoin => exact .joined (loop body front) tail hjoin
  | apart hapart =>
      show Welds (loop body rest) second ((loop body rest).append second)
      refine .apart fun front c heq ↦ ?_
      cases front with
      | nil | command => cases heq
      | loop _ front => exact hapart front c (by injection heq)

/-- One command in front of a block is the command at the seam. -/
theorem welds_cons (e : Command) (second : Block) :
    Welds (command e nil) second (cons e second) := by
  obtain ⟨d, tail, joint, rfl, hjoin, hcons⟩ | ⟨hstart, hcons⟩ := cons_cases e second
  · rw [hcons]
    exact .joined nil tail hjoin
  · rw [hcons]
    show Welds (command e nil) second ((command e nil).append second)
    refine .apart fun front c heq ↦ ?_
    cases front with
    | nil =>
        cases heq
        exact hstart
    | command _ front =>
        injection heq with _ hnil
        exact absurd hnil.symm (append_command_ne_nil front c nil)
    | loop => cases heq

/-- Behind a normal block a block is welded at the seam only: the commands within the first block
do not join. -/
theorem welds_weld (h : first.Normal) (second : Block) :
    Welds first second (first.weld second) := by
  induction first with
  | nil => exact .apart fun front c heq ↦ absurd heq.symm (append_command_ne_nil front c nil)
  | command e rest ih =>
      obtain ⟨_, hstart, hrest⟩ := h
      by_cases hnil : rest = nil
      · rw [hnil]
        exact welds_cons e second
      · exact (ih hrest).behind_command hnil hstart
  | loop body rest _ ih => exact (ih h.2).behind_loop body

end Block

/-! ## Programs -/

namespace Program

variable {first second : Program} {c d joint : Command} {front behind : List Instruction}

/-- Where no commands join, the second program stands behind the first with its targets moved
on. -/
theorem toList_weld_of_seam?_eq_none (h : first.seam? second = none) :
    (first.weld second).toList =
      first.toList ++ second.toList.map (Instruction.relocate first.size) := by
  rw [weld, h]
  simp [relocate]

/-- Two programs meet in a joint command where the commands at the seam join. -/
theorem seam?_eq_some (hfirst : first.toList = front ++ [.command c])
    (hsecond : second.toList = .command d :: behind) (hjoin : c.join? d = some joint) :
    first.seam? second = some joint := by
  have hlast : first.back? = some (.command c) := by
    rw [← Array.getLast?_toList, hfirst, List.getLast?_concat]
  have hhead : second[0]? = some (.command d) := by
    rw [← Array.getElem?_toList, hsecond]
    rfl
  rw [seam?, hlast, hhead]
  exact hjoin

/-- Where commands join, one command stands in place of both, and the rest of the second program
has its targets moved on. -/
theorem toList_weld_of_join? (hfirst : first.toList = front ++ [.command c])
    (hsecond : second.toList = .command d :: behind) (hjoin : c.join? d = some joint) :
    (first.weld second).toList =
      front ++ .command joint :: behind.map (Instruction.relocate front.length) := by
  have hsize : (first.size : Int) - 1 = front.length := by
    rw [← Array.length_toList, hfirst, List.length_append, List.length_singleton]
    omega
  have hpop : first.pop.toList = front := by
    rw [Array.toList_pop, hfirst, List.dropLast_concat]
  have hbehind : (second.extract 1).toList = behind := by
    rw [Array.toList_extract, ← Array.length_toList, hsecond]
    simp
  rw [weld, seam?_eq_some hfirst hsecond hjoin]
  simp only [relocate, Array.toList_append, Array.toList_push, Array.toList_map, hpop, hbehind,
    hsize, List.append_assoc, List.singleton_append]

end Program

namespace Block

variable {first second whole : Block}

/-- Nothing joins at the seam of two assembled blocks where the second block does not start like
the end of the first. -/
theorem seam?_assemble_eq_none
    (h : ∀ (front : Block) c, first = front.append (command c nil) → ¬ second.StartsLike c) :
    first.assemble.seam? second.assemble = none := by
  unfold Program.seam?
  split
  · rename_i c d hlast hhead
    rw [← Array.getLast?_toList, toList_assemble] at hlast
    rw [← Array.getElem?_toList, toList_assemble] at hhead
    obtain ⟨front, rfl⟩ := exists_eq_append_of_getLast? hlast
    have hapart := h front c rfl
    cases second with
    | nil | loop => cases hhead
    | command e tail =>
        cases hhead
        exact Command.join?_eq_none_iff.mpr hapart
  · rfl

/-- A block that ends with a command is laid out with this command at its end. -/
theorem toList_assemble_append_command (front : Block) (c : Command) :
    (front.append (command c nil)).assemble.toList = front.layout 0 ++ [.command c] := by
  rw [toList_assemble, layout_append]
  rfl

/-- Where commands join at the seam of two blocks, they join at the seam of their programs. -/
theorem seam?_assemble_eq_some (front tail : Block) {c d joint : Command}
    (hjoin : c.join? d = some joint) :
    (front.append (command c nil)).assemble.seam? (command d tail).assemble = some joint :=
  Program.seam?_eq_some (toList_assemble_append_command front c) (toList_assemble _) hjoin

/-- Blocks are welded as their programs are. -/
theorem Welds.assemble_eq (h : Welds first second whole) :
    whole.assemble = first.assemble.weld second.assemble := by
  apply Array.toList_inj.mp
  cases h with
  | @joined front tail c d _ hjoin =>
      have hsecond : (command d tail).assemble.toList = .command d :: tail.layout 1 :=
        toList_assemble _
      rw [Program.toList_weld_of_join? (toList_assemble_append_command front c) hsecond hjoin,
        toList_assemble, layout_append, length_layout, map_relocate_layout, Nat.zero_add, layout,
        Nat.add_comm 1]
  | apart hapart =>
      rw [Program.toList_weld_of_seam?_eq_none (seam?_assemble_eq_none hapart), toList_assemble,
        toList_assemble, toList_assemble, layout_append, size_assemble, map_relocate_layout]

/-- A loop is laid out as its body in brackets. -/
theorem assemble_loop (body : Block) : (loop body nil).assemble = body.assemble.enclose := by
  apply Array.toList_inj.mp
  rw [toList_assemble, layout, layout, Program.enclose, Program.relocate]
  simp [toList_assemble, ← map_relocate_layout body 0 1]

end Block

/-! ## Compilation -/

variable {a b : Source} {first second program : Program}

/-- Two sources side by side compile to their programs welded. -/
theorem compile_append (ha : compile a = .ok first) (hb : compile b = .ok second) :
    compile (a ++ b) = .ok (first.weld second) := by
  obtain ⟨hbalanced, rfl⟩ := compile_eq_ok_iff.mp ha
  obtain ⟨hbalanced', rfl⟩ := compile_eq_ok_iff.mp hb
  have hwelds := Block.welds_weld (Block.normal_ofOperators a.operators)
    (Block.ofOperators b.operators)
  refine compile_eq_ok_iff.mpr ⟨hbalanced.append hbalanced', ?_⟩
  rw [Source.operators_append, Block.ofOperators_append (Source.balanced_operators hbalanced)
    (Source.balanced_operators hbalanced'), hwelds.assemble_eq]

/-- A source in brackets compiles to its program as the body of a loop. -/
theorem compile_brackets (ha : compile a = .ok program) :
    compile (Operator.opening.byte :: (a ++ [Operator.closing.byte])) = .ok program.enclose := by
  obtain ⟨hbalanced, rfl⟩ := compile_eq_ok_iff.mp ha
  have hoperators : Source.operators (Operator.opening.byte :: (a ++ [Operator.closing.byte])) =
      .opening :: (a.operators ++ [.closing]) := by
    simp [Source.operators]
  have hread : Block.ofOperators (.opening :: (a.operators ++ [.closing])) =
      .loop (Block.ofOperators a.operators) .nil :=
    Block.prepend_pair (Source.balanced_operators hbalanced) .nil .nil
  refine compile_eq_ok_iff.mpr ⟨.pair rfl hbalanced rfl .nil, ?_⟩
  rw [hoperators, hread, Block.assemble_loop]

/-- Compilation is compositional.

Two sources side by side compile to the program of the first with that of the second behind it,
where every target of the second is as many instructions further on as stand in front of it. Only
where the first program ends with a command and the second starts with one of the same kind, both
changes of the cell or both moves of the head, these two are one command with the sum of their
deltas, as a cell value or a pointer word. A source in brackets compiles to a loop whose body is its
program. -/
theorem compile_compositional (ha : compile a = .ok first) (hb : compile b = .ok second) :
    compile (a ++ b) = .ok (first.weld second) ∧
    compile (Operator.opening.byte :: (a ++ [Operator.closing.byte])) = .ok first.enclose :=
  ⟨compile_append ha hb, compile_brackets ha⟩

/-- Two sources that meet within a run, with a loop on either side of it. -/
theorem compile_compositional_seam :
    let a : Source := [0x5B, 0x3E, 0x5D, 0x2B]
    let b : Source := [0x2B, 0x5B, 0x3C, 0x5D]
    compile a = .ok #[.loopStart 2, .command (.move 1), .loopEnd 0, .command (.add 1)] ∧
      compile b = .ok #[.command (.add 1), .loopStart 3, .command (.move (pointerModulus - 1)),
        .loopEnd 1] ∧
      compile (a ++ b) = .ok #[.loopStart 2, .command (.move 1), .loopEnd 0, .command (.add 2),
        .loopStart 6, .command (.move (pointerModulus - 1)), .loopEnd 4] := by
  intro a b
  have ha : compile a =
      .ok #[.loopStart 2, .command (.move 1), .loopEnd 0, .command (.add 1)] := rfl
  have hb : compile b = .ok #[.command (.add 1), .loopStart 3,
      .command (.move (pointerModulus - 1)), .loopEnd 1] := rfl
  refine ⟨ha, hb, ?_⟩
  simpa [Program.weld, Program.seam?, Program.relocate, Command.join?, cellModulus,
    Instruction.relocate] using (compile_compositional ha hb).1

end TapeMachine
