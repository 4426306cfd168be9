import Mathlib.Data.List.Chain
import TapeMachine.Code
import TapeMachine.Proofs.Block.Layout
import TapeMachine.Proofs.Block.Reading

/-!
# Paired loop instructions

`Program.Paired` says of a flat program what its loop instructions should be: brackets that pair
up, each naming the index of its partner. Exactly the layouts of blocks are paired,
`paired_iff_exists_block`, and the layouts of normal blocks are the paired programs whose deltas
are in range and whose commands do not join their neighbours, `wellFormed_iff_exists_block`.
-/

namespace TapeMachine

/-- The part of an instruction in the nesting of a program. -/
def Instruction.role : Instruction → Role
  | command _ => .plain
  | loopStart _ => .opening
  | loopEnd _ => .closing

/-- Only commands play no part in the nesting. -/
theorem Instruction.exists_of_role_plain {a : Instruction} (h : a.role = .plain) :
    ∃ c, a = .command c := by
  cases a <;> first | exact ⟨_, rfl⟩ | cases h

/-- Only the start of a loop opens. -/
theorem Instruction.exists_of_role_opening {a : Instruction} (h : a.role = .opening) :
    ∃ close, a = .loopStart close := by
  cases a <;> first | exact ⟨_, rfl⟩ | cases h

/-- Only the end of a loop closes. -/
theorem Instruction.exists_of_role_closing {a : Instruction} (h : a.role = .closing) :
    ∃ start, a = .loopEnd start := by
  cases a <;> first | exact ⟨_, rfl⟩ | cases h

/-- Two instructions whose operators, side by side, would be read as one command. -/
def Instruction.Joins : Instruction → Instruction → Prop
  | command c, command d => c.Joins d
  | _, _ => False

/-- The loop instructions of a program are properly nested, and a loop start and a loop end are
partners exactly when each names the index of the other. -/
structure Program.Paired (program : Program) : Prop where
  nested : Balanced Instruction.role program.toList
  partners : ∀ (i j : Nat) (close start : Int), program[i]? = some (.loopStart close) →
    program[j]? = some (.loopEnd start) →
    (Partners Instruction.role program.toList i j ↔ close = j ∧ start = i)

/-- Programs as compilation produces them: paired, with the deltas of cell values and pointer
words, and with no command beside one that it would join. -/
structure Program.WellFormed (program : Program) : Prop extends program.Paired where
  inRange : ∀ c, .command c ∈ program → c.InRange
  apart : program.toList.IsChain fun first second ↦ ¬ first.Joins second

namespace Block

/-- The loop instructions of a layout are properly nested. -/
theorem balanced_layout (block : Block) (base : Nat) :
    Balanced Instruction.role (block.layout base) := by
  induction block generalizing base with
  | nil => exact .nil
  | command c rest ih => exact .plain rfl (ih _)
  | loop body rest ihBody ihRest => exact .pair rfl (ihBody _) rfl (ihRest _)

/-- A loop start and a loop end of a layout that have something balanced between them name each
other. -/
theorem targets_of_layout_eq {block : Block} {base : Nat} {close start : Int}
    {before body after : List Instruction}
    (heq : block.layout base = before ++ .loopStart close :: (body ++ .loopEnd start :: after))
    (hbody : Balanced Instruction.role body) :
    close = ↑(base + before.length + body.length + 1) ∧ start = ↑(base + before.length) := by
  induction block generalizing base before after with
  | nil => simp [layout] at heq
  | command c rest ih =>
      cases before with
      | nil => cases heq
      | cons first before =>
          obtain ⟨hclose, hstart⟩ := ih (List.cons.inj heq).2
          rw [hclose, hstart, List.length_cons]
          omega
  | loop inner rest ihInner ihRest =>
      cases before with
      | nil =>
          obtain ⟨hfirst, htail⟩ := List.cons.inj heq
          obtain ⟨rfl, hlast, _⟩ := (balanced_layout inner _).closing_unique rfl hbody rfl htail
          cases hfirst
          cases hlast
          simp
      | cons first before =>
          obtain ⟨shared, rfl, hrest⟩ | ⟨shared, hinner, hafter⟩ :=
            append_cons_cases (by simp) (List.cons.inj heq).2
          · obtain ⟨hclose, hstart⟩ := ihRest hrest
            rw [hclose, hstart]
            simp only [List.length_cons, List.length_append, length_layout]
            omega
          · -- the partner of this loop start is inside the outer loop too
            obtain ⟨body', z, after', rfl, hbody', hz⟩ :=
              (balanced_layout inner _).exists_closing rfl hinner
            rw [List.append_assoc] at hafter
            obtain ⟨rfl, rfl, _⟩ := hbody.closing_unique rfl hbody' hz hafter
            obtain ⟨hclose, hstart⟩ := ihInner hinner
            rw [hclose, hstart, List.length_cons]
            omega

/-- Assembled programs are paired. -/
theorem paired_assemble (block : Block) : block.assemble.Paired := by
  have hlist : block.assemble.toList = block.layout 0 := toList_assemble block
  refine ⟨hlist ▸ balanced_layout block 0, fun i j close start hi hj ↦ ?_⟩
  rw [← Array.getElem?_toList, hlist] at hi hj
  rw [hlist]
  obtain ⟨before, after, hsplit, rfl⟩ := exists_eq_append_of_getElem? hi
  constructor
  · -- both ways to split the layout at the index of the loop start are the same
    rintro ⟨before', a, body, z, after', heq, ha, hbody, hz, hfirst, rfl⟩
    obtain ⟨rfl, htail⟩ := List.append_inj (hsplit.symm.trans heq) hfirst
    obtain ⟨rfl, rfl⟩ := List.cons.inj htail
    have hlast : z = .loopEnd start :=
      Option.some.inj ((getElem?_of_eq_append heq).symm.trans hj)
    obtain ⟨hclose, hstart⟩ := targets_of_layout_eq (hlast ▸ heq) hbody
    omega
  · rintro ⟨hclose, hstart⟩
    obtain ⟨body, z, rest, rfl, hbody, hz⟩ := (balanced_layout block 0).exists_closing rfl hsplit
    refine ⟨before, _, body, z, rest, hsplit, rfl, hbody, hz, rfl, ?_⟩
    obtain ⟨target, rfl⟩ := Instruction.exists_of_role_closing hz
    obtain ⟨htarget, _⟩ := targets_of_layout_eq hsplit hbody
    omega

/-- A part of a paired program that is balanced by itself is the layout of a block. -/
theorem exists_layout_eq {program : Program} (h : program.Paired)
    {before part after : List Instruction} (heq : program.toList = before ++ (part ++ after))
    (hpart : Balanced Instruction.role part) :
    ∃ block : Block, block.layout before.length = part := by
  induction hpart generalizing before after with
  | nil => exact ⟨nil, rfl⟩
  | @plain a tail ha _ ih =>
      obtain ⟨c, rfl⟩ := Instruction.exists_of_role_plain ha
      have hsplit : program.toList = (before ++ [.command c]) ++ (tail ++ after) := by
        simp [heq]
      obtain ⟨rest, hrest⟩ := ih hsplit
      refine ⟨command c rest, ?_⟩
      rw [List.length_append] at hrest
      rw [layout, ← hrest]
      rfl
  | @pair a z inner tail ha hinner hz _ ihInner ihTail =>
      obtain ⟨close, rfl⟩ := Instruction.exists_of_role_opening ha
      obtain ⟨start, rfl⟩ := Instruction.exists_of_role_closing hz
      have hsplit : program.toList =
          before ++ .loopStart close :: (inner ++ .loopEnd start :: (tail ++ after)) := by
        simp [heq]
      have hsplitInner : program.toList = (before ++ [.loopStart close]) ++
          (inner ++ .loopEnd start :: (tail ++ after)) := by
        simp [heq]
      have hsplitTail : program.toList =
          (before ++ .loopStart close :: (inner ++ [.loopEnd start])) ++ (tail ++ after) := by
        simp [heq]
      have hfirst : program[before.length]? = some (.loopStart close) := by
        simp [← Array.getElem?_toList, hsplit]
      have hlast : program[before.length + inner.length + 1]? = some (.loopEnd start) := by
        rw [← Array.getElem?_toList]
        exact getElem?_of_eq_append hsplit
      -- what stands between them is balanced, so they are partners and name each other
      obtain ⟨hclose, hstart⟩ := (h.partners _ _ _ _ hfirst hlast).mp
        ⟨before, _, inner, _, tail ++ after, hsplit, rfl, hinner, rfl, rfl, rfl⟩
      obtain ⟨body, hbody⟩ := ihInner hsplitInner
      obtain ⟨rest, hrest⟩ := ihTail hsplitTail
      have hsize : body.size = inner.length := by rw [← hbody, length_layout]
      refine ⟨loop body rest, ?_⟩
      simp only [List.length_append, List.length_cons, List.length_nil, ← hsize] at hbody hrest
      rw [layout, hclose, hstart, hbody, ← hsize]
      exact congrArg (fun behind ↦ _ :: (inner ++ _ :: behind)) hrest

/-- Exactly the assembled programs are paired. -/
theorem paired_iff_exists_block {program : Program} :
    program.Paired ↔ ∃ block : Block, block.assemble = program := by
  constructor
  · intro h
    have hwhole : program.toList = [] ++ (program.toList ++ []) := by simp
    obtain ⟨block, hblock⟩ := exists_layout_eq h hwhole h.nested
    exact ⟨block, Array.toList_inj.mp (by rw [toList_assemble]; exact hblock)⟩
  · rintro ⟨block, rfl⟩
    exact paired_assemble block

/-- A block is normal exactly when the deltas of its layout are in range and no instruction of it
joins the next. -/
theorem normal_iff_layout (block : Block) (base : Nat) :
    block.Normal ↔ (∀ c, .command c ∈ block.layout base → c.InRange) ∧
      (block.layout base).IsChain fun first second ↦ ¬ first.Joins second := by
  induction block generalizing base with
  | nil => simp [Normal, layout]
  | command c rest ih =>
      have hstart : rest.StartsLike c ↔
          ∃ second ∈ (rest.layout (base + 1)).head?, (Instruction.command c).Joins second := by
        cases rest <;> simp [StartsLike, layout, Instruction.Joins]
      simp only [Normal, layout, List.isChain_cons, ih (base + 1), hstart, List.mem_cons,
        Instruction.command.injEq]
      constructor
      · rintro ⟨hrange, hapart, hranges, hchain⟩
        refine ⟨?_, fun second hsecond hjoins ↦ hapart ⟨second, hsecond, hjoins⟩, hchain⟩
        rintro d (rfl | hmem)
        · exact hrange
        · exact hranges d hmem
      · rintro ⟨hranges, hapart, hchain⟩
        refine ⟨hranges c (.inl rfl), ?_, fun d hmem ↦ hranges d (.inr hmem), hchain⟩
        rintro ⟨second, hsecond, hjoins⟩
        exact hapart second hsecond hjoins
  | loop body rest ihBody ihRest =>
      simp only [Normal, layout, ihBody (base + 1), ihRest (base + body.size + 2),
        List.isChain_cons, List.isChain_append, List.mem_cons, List.mem_append, reduceCtorEq,
        false_or, Instruction.Joins]
      simp only [not_false_eq_true, implies_true, true_and]
      constructor
      · rintro ⟨⟨hrangesBody, hchainBody⟩, hrangesRest, hchainRest⟩
        refine ⟨?_, hchainBody, hchainRest, ?_⟩
        · rintro d (hmem | hmem)
          · exact hrangesBody d hmem
          · exact hrangesRest d hmem
        · rintro first _ second hsecond
          cases hsecond
          cases first <;> exact id
      · rintro ⟨hranges, hchainBody, hchainRest, _⟩
        exact ⟨⟨fun d hmem ↦ hranges d (.inl hmem), hchainBody⟩,
          fun d hmem ↦ hranges d (.inr hmem), hchainRest⟩

/-- Exactly the normal blocks are assembled to well-formed programs. -/
theorem wellFormed_iff_exists_block {program : Program} :
    program.WellFormed ↔ ∃ block : Block, block.Normal ∧ block.assemble = program := by
  constructor
  · rintro ⟨hpaired, hrange, hapart⟩
    obtain ⟨block, rfl⟩ := paired_iff_exists_block.mp hpaired
    simp only [← Array.mem_toList_iff, toList_assemble] at hrange hapart
    exact ⟨block, (normal_iff_layout block 0).mpr ⟨hrange, hapart⟩, rfl⟩
  · rintro ⟨block, hnormal, rfl⟩
    obtain ⟨hrange, hapart⟩ := (normal_iff_layout block 0).mp hnormal
    refine ⟨paired_assemble block, ?_, ?_⟩
    · simpa only [← Array.mem_toList_iff, toList_assemble] using hrange
    · rwa [toList_assemble]

end Block

namespace Program.Paired

variable {program : Program} {i j : Nat}

/-- The start of a loop in a paired program names its end. -/
theorem exists_loopEnd {close : Int} (h : program.Paired)
    (hi : program[i]? = some (.loopStart close)) :
    ∃ j : Nat, close = j ∧ program[j]? = some (.loopEnd i) ∧
      Partners Instruction.role program.toList i j := by
  have hlist : program.toList[i]? = some (.loopStart close) := by
    rw [Array.getElem?_toList, hi]
  obtain ⟨j, hpartners⟩ := h.nested.exists_partners_opening hlist rfl []
  rw [List.length_nil, Nat.zero_add] at hpartners
  obtain ⟨-, z, hj, hz⟩ := hpartners.getElem?
  obtain ⟨start, rfl⟩ := Instruction.exists_of_role_closing hz
  rw [List.nil_append, Array.getElem?_toList] at hj
  obtain ⟨hclose, rfl⟩ := (h.partners i j close start hi hj).mp hpartners
  exact ⟨j, hclose, hj, hpartners⟩

/-- The end of a loop in a paired program names its start. -/
theorem exists_loopStart {start : Int} (h : program.Paired)
    (hj : program[j]? = some (.loopEnd start)) :
    ∃ i : Nat, start = i ∧ program[i]? = some (.loopStart j) ∧
      Partners Instruction.role program.toList i j := by
  have hlist : program.toList[j]? = some (.loopEnd start) := by
    rw [Array.getElem?_toList, hj]
  obtain ⟨i, hpartners⟩ := h.nested.exists_partners_closing hlist rfl []
  rw [List.append_nil] at hpartners
  obtain ⟨⟨a, hi, ha⟩, -⟩ := hpartners.getElem?
  obtain ⟨close, rfl⟩ := Instruction.exists_of_role_opening ha
  rw [Array.getElem?_toList] at hi
  obtain ⟨rfl, hstart⟩ := (h.partners i j close start hi hj).mp hpartners
  exact ⟨i, hstart, hi, hpartners⟩

end Program.Paired

end TapeMachine
