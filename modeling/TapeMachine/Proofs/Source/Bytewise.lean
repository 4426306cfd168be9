import TapeMachine.Proofs.Block.Equivalence
import TapeMachine.Proofs.Source.Acceptance

/-!
# One instruction for each byte

The bytewise program of a source has an instruction at the position of each byte, comments
included, and jumps to the positions of brackets. For a balanced source it is the layout of a
block, `exists_tree`, which means the same as the block that the operators are read as.
-/

namespace TapeMachine

namespace Source

/-- The position of the closing bracket that belongs to an opening bracket, found by counting
brackets from there to the right. -/
def closingAfter (source : Source) (position : Nat) : Nat :=
  position + 1 + partnerDistance role 0 (source.drop (position + 1))

/-- The position of the opening bracket that belongs to a closing bracket, found by counting
brackets from there to the left. -/
def openingBefore (source : Source) (position : Nat) : Nat :=
  position - 1 - partnerDistance (fun b ↦ (role b).mirror) 0 (source.take position).reverse

/-- The instruction that a byte at some position amounts to. A comment is a move by nothing. -/
def instruction (source : Source) (position : Nat) (b : UInt8) : Instruction :=
  match Operator.ofByte? b with
  | none => .command (.move 0)
  | some .opening => .loopStart (source.closingAfter position)
  | some .closing => .loopEnd (source.openingBefore position)
  | some op => .command (op.command?.getD (.move 0))

/-- The instructions that the bytes of a part of a source amount to, from a position on. -/
def instructions (source : Source) : Nat → List UInt8 → List Instruction
  | _, [] => []
  | position, b :: rest =>
      source.instruction position b :: source.instructions (position + 1) rest

/-- A program with one instruction for each byte of a source. -/
def bytewise (source : Source) : Program :=
  (source.instructions 0 source).toArray

/-- The instructions of a part of a source have the positions of its bytes. -/
theorem getElem?_instructions (source : Source) (position : Nat) (part : List UInt8) (i : Nat) :
    (source.instructions position part)[i]? =
      part[i]?.map (source.instruction (position + i)) := by
  induction part generalizing position i with
  | nil => rfl
  | cons b rest ih =>
      cases i with
      | zero => rfl
      | succ i =>
          rw [instructions, List.getElem?_cons_succ, List.getElem?_cons_succ, ih]
          congr 2
          omega

/-- A part of a source has as many instructions as bytes. -/
@[simp] theorem length_instructions (source : Source) (position : Nat) (part : List UInt8) :
    (source.instructions position part).length = part.length := by
  induction part generalizing position with
  | nil => rfl
  | cons b rest ih => rw [instructions, List.length_cons, List.length_cons, ih]

/-- The bytewise program has the instruction of a byte at the position of the byte. -/
theorem getElem?_bytewise (source : Source) (position : Nat) :
    source.bytewise.code[position]? =
      source[position]?.map fun b ↦ .instruction (source.instruction position b) := by
  have hword := getElem?_instructions source 0 source position
  rw [Nat.zero_add] at hword
  simp only [bytewise, Program.code, Array.getElem?_map, List.getElem?_toArray, hword,
    Option.map_map]
  rfl

end Source

/-! ## The bytewise program as a block -/

namespace Source

variable {source : Source} {before part after body : List UInt8} {a z : UInt8}

/-- The partner of an opening bracket is found behind what stands between them. -/
theorem closingAfter_eq (heq : source = before ++ a :: (body ++ z :: after))
    (hbody : Balanced role body) (hz : role z = .closing) :
    source.closingAfter before.length = before.length + body.length + 1 := by
  have hsplit : source = (before ++ [a]) ++ (body ++ z :: after) := by simp [heq]
  have hdrop : source.drop (before.length + 1) = body ++ z :: after := by
    rw [hsplit, List.drop_left' (by simp)]
  rw [closingAfter, hdrop, hbody.partnerDistance_closing hz, Nat.add_right_comm]

/-- The partner of a closing bracket is found in front of what stands between them. -/
theorem openingBefore_eq (heq : source = before ++ a :: (body ++ z :: after))
    (ha : role a = .opening) (hbody : Balanced role body) :
    source.openingBefore (before.length + body.length + 1) = before.length := by
  have hsplit : source = (before ++ a :: body) ++ z :: after := by simp [heq]
  have htake : (source.take (before.length + body.length + 1)).reverse =
      body.reverse ++ a :: before.reverse := by
    rw [hsplit, List.take_left' (by simp [Nat.add_assoc])]
    simp
  have hmirror : (role a).mirror = .closing := by rw [ha]; rfl
  rw [openingBefore, htake, hbody.mirror.partnerDistance_closing hmirror, List.length_reverse]
  omega

/-- The instructions of two parts of a source side by side. -/
theorem instructions_append (source : Source) (position : Nat) (first second : List UInt8) :
    source.instructions position (first ++ second) =
      source.instructions position first ++
        source.instructions (position + first.length) second := by
  induction first generalizing position with
  | nil => rfl
  | cons b rest ih =>
      simp only [List.cons_append, instructions, ih, List.length_cons]
      congr 3
      omega

/-- The instruction of an opening bracket. -/
theorem instruction_opening (source : Source) (position : Nat) (ha : role a = .opening) :
    source.instruction position a = .loopStart (source.closingAfter position) := by
  simp [instruction, ofByte?_of_role_opening ha]

/-- The instruction of a closing bracket. -/
theorem instruction_closing (source : Source) (position : Nat) (hz : role z = .closing) :
    source.instruction position z = .loopEnd (source.openingBefore position) := by
  simp [instruction, ofByte?_of_role_closing hz]

/-- The instruction of an operator that is not a bracket. -/
theorem instruction_of_command? (source : Source) (position : Nat) {op : Operator} {c : Command}
    (hop : Operator.ofByte? a = some op) (hc : op.command? = some c) :
    source.instruction position a = .command c := by
  cases op <;> cases hc <;> simp [instruction, hop, Operator.command?]

/-- The instruction of a comment. -/
theorem instruction_comment (source : Source) (position : Nat) (ha : Operator.ofByte? a = none) :
    source.instruction position a = .command (.move 0) := by
  simp [instruction, ha]

end Source

namespace Block

variable {σ ε : Type} [Device σ ε]

/-- A move by nothing does nothing. -/
theorem move_zero_equivalent (rest : Block) :
    (command (.move 0) rest).Equivalent σ rest := by
  have hperform : ∀ {size : Nat} {store : Store σ}, store.InBounds size →
      store.perform (.move 0) = (.ok (), store) := by
    intro size store hbounds
    obtain ⟨tape, pointer, device⟩ := store
    have hlt : pointer < tape.size := hbounds.tape_size ▸ hbounds.pointer_lt
    have hself : (pointer + signedOffset 0) % tape.size = pointer := by
      rw [show signedOffset 0 = 0 from rfl, Int.add_zero]
      exact Int.emod_eq_of_lt hbounds.pointer_nonneg hlt
    rw [Store.perform, hself]
  constructor
  · intro size cost store left result hbounds hevaluates
    cases hevaluates with
    | command hcommand hrest =>
        cases (hperform hbounds).symm.trans hcommand
        exact ⟨_, hrest⟩
    | commandFault hcommand => cases (hperform hbounds).symm.trans hcommand
  · intro size cost store left result hbounds hevaluates
    exact ⟨_, .command (hperform hbounds) hevaluates⟩

/-- A balanced part of a source that is not too long has a block with one command for each of its
bytes. The block is laid out as the bytewise instructions of the part, and means the same as the
block that its operators are read as. -/
theorem exists_tree {source : Source} {before part after : List UInt8}
    (h : Balanced Source.role part) (heq : source = before ++ (part ++ after))
    (hlength : fitsWord part.length) :
    ∃ tree : Block, tree.layout before.length = source.instructions before.length part ∧
      tree.Equivalent σ (ofOperators (Source.operators part)) := by
  induction h generalizing before after with
  | nil => exact ⟨nil, rfl, .refl nil⟩
  | @plain b rest hb hrest ih =>
      have hsplit : source = (before ++ [b]) ++ (rest ++ after) := by simp [heq]
      rw [List.length_cons] at hlength
      obtain ⟨tree, hlayout, hequivalent⟩ :=
        ih hsplit (fitsWord_of_le (Nat.le_succ _) hlength)
      rw [List.length_append, List.length_singleton] at hlayout
      cases hop : Operator.ofByte? b with
      | none =>
          -- the operators of the block skip the comment, its instruction is a move by nothing
          refine ⟨command (.move 0) tree, ?_, ?_⟩
          · rw [layout, Source.instructions, Source.instruction_comment _ _ hop, hlayout]
          · have hoperators : Source.operators (b :: rest) = Source.operators rest :=
              List.filterMap_cons_none hop
            rw [hoperators]
            exact (move_zero_equivalent tree).trans hequivalent
      | some op =>
          obtain ⟨c, hc⟩ := op.exists_command? ((Source.role_of_ofByte? hop).symm.trans hb)
          refine ⟨command c tree, ?_, ?_⟩
          · rw [layout, Source.instructions, Source.instruction_of_command? _ _ hop hc, hlayout]
          · have hoperators : Source.operators (b :: rest) = op :: Source.operators rest :=
              List.filterMap_cons_some hop
            have hread : ofOperators (op :: Source.operators rest) =
                cons c (ofOperators (Source.operators rest)) :=
              prepend_cons hc (Source.balanced_operators hrest) nil
            -- fewer bytes than one sign has words leave no room for an offset to turn around
            have hspell := length_spell_source_le rest
            have hone := Command.length_spell_of_command? hc
            have hcons : (cons c (ofOperators (Source.operators rest))).Equivalent σ
                (command c (ofOperators (Source.operators rest))) :=
              cons_equivalent (Command.inRange_of_command? hc) (normal_ofOperators _)
                (fitsWord_of_le (by omega) hlength)
            rw [hoperators, hread]
            exact (hequivalent.command c).trans hcons.symm
  | @pair a z body rest ha hbody hz hrest ihBody ihRest =>
      have hsplit : source = before ++ a :: (body ++ z :: (rest ++ after)) := by simp [heq]
      have hsplitBody : source = (before ++ [a]) ++ (body ++ z :: (rest ++ after)) := by
        simp [heq]
      have hsplitRest : source = (before ++ a :: (body ++ [z])) ++ (rest ++ after) := by
        simp [heq]
      rw [List.length_cons, List.length_append, List.length_cons] at hlength
      obtain ⟨inner, hinner, hequivalentInner⟩ :=
        ihBody hsplitBody (fitsWord_of_le (by omega) hlength)
      obtain ⟨outer, houter, hequivalentOuter⟩ :=
        ihRest hsplitRest (fitsWord_of_le (by omega) hlength)
      have hsize : inner.size = body.length := by
        have hlengths := congrArg List.length hinner
        rwa [length_layout, Source.length_instructions] at hlengths
      simp only [List.length_append, List.length_cons, List.length_nil] at hinner houter
      refine ⟨loop inner outer, ?_, ?_⟩
      · rw [layout, Source.instructions, Source.instructions_append, Source.instructions,
          Source.instruction_opening _ _ ha, Source.instruction_closing _ _ hz,
          Nat.add_right_comm before.length 1, Source.closingAfter_eq hsplit hbody hz,
          Source.openingBefore_eq hsplit ha hbody, hinner, hsize]
        exact congrArg (fun behind ↦ _ :: (_ ++ _ :: behind)) houter
      · have hoperators : Source.operators (a :: (body ++ z :: rest)) =
            .opening :: (Source.operators body ++ .closing :: Source.operators rest) := by
          simp [Source.operators, Source.ofByte?_of_role_opening ha,
            Source.ofByte?_of_role_closing hz]
        have hread : ofOperators
              (.opening :: (Source.operators body ++ .closing :: Source.operators rest)) =
            loop (ofOperators (Source.operators body)) (ofOperators (Source.operators rest)) :=
          prepend_pair (Source.balanced_operators hbody) (Source.balanced_operators hrest) nil
        rw [hoperators, hread]
        exact hequivalentInner.loop hequivalentOuter

end Block

end TapeMachine
