import TapeMachine.Compile
import TapeMachine.Proofs.Block
import TapeMachine.Proofs.Nesting
import TapeMachine.Spelling

/-!
# Reading operators as a block

`Block.prepend` is the block that operators spell in front of another block. Read from the right,
balanced operators only ever change the block at hand and leave alone what has been set aside,
`foldr_cons_of_balanced`, so `prepend` follows their structure: `prepend_cons` takes off the
operator of a command, which `Block.cons` puts in front and joins, and `prepend_pair` a loop.

Reading only ever produces `Block.Normal` blocks, `normal_ofOperators`.
-/

namespace TapeMachine

/-- The part of an operator in the nesting of a source. -/
def Operator.role : Operator → Role
  | opening => .opening
  | closing => .closing
  | _ => .plain

/-- Only the opening bracket opens. -/
theorem Operator.eq_opening_of_role {op : Operator} (h : op.role = .opening) : op = opening := by
  cases op <;> first | rfl | cases h

/-- Only the closing bracket closes. -/
theorem Operator.eq_closing_of_role {op : Operator} (h : op.role = .closing) : op = closing := by
  cases op <;> first | rfl | cases h

/-- The part of a byte in the nesting of a source. Comments have none. -/
def Source.role (b : UInt8) : Role :=
  match Operator.ofByte? b with
  | some op => op.role
  | none => .plain

namespace Source

/-- An operator byte has the role of its operator. -/
theorem role_of_ofByte? {b : UInt8} {op : Operator} (h : Operator.ofByte? b = some op) :
    role b = op.role := by
  simp [role, h]

/-- Only the byte of the opening bracket opens. -/
theorem ofByte?_of_role_opening {b : UInt8} (h : role b = .opening) :
    Operator.ofByte? b = some .opening := by
  unfold role at h
  split at h
  · rename_i op hop
    cases op <;> first | exact hop | cases h
  · cases h

/-- Only the byte of the closing bracket closes. -/
theorem ofByte?_of_role_closing {b : UInt8} (h : role b = .closing) :
    Operator.ofByte? b = some .closing := by
  unfold role at h
  split at h
  · rename_i op hop
    cases op <;> first | exact hop | cases h
  · cases h

/-- The operators of a balanced source are balanced. -/
theorem balanced_operators {source : Source} (h : Balanced role source) :
    Balanced Operator.role source.operators := by
  refine h.filterMap fun b ↦ ?_
  cases hb : Operator.ofByte? b with
  | none => exact .inr ⟨rfl, by simp [role, hb]⟩
  | some op => exact .inl ⟨op, rfl, (role_of_ofByte? hb).symm⟩

end Source

/-! ## Commands in front of a block -/

/-- The command of an operator that is not a bracket. -/
def Operator.command? : Operator → Option Command
  | increment => some (.add 1)
  | decrement => some (.add (cellModulus - 1))
  | right => some (.move 1)
  | left => some (.move (pointerModulus - 1))
  | output => some .write
  | input => some .read
  | opening | closing => none

/-- Exactly the operators that are not brackets have a command. -/
theorem Operator.exists_command? {op : Operator} (h : op.role = .plain) :
    ∃ c, op.command? = some c := by
  cases op <;> first | exact ⟨_, rfl⟩ | cases h

namespace Command

/-- The delta of a command is one that reading produces: a cell value, or a pointer word. -/
def InRange : Command → Prop
  | add delta => 0 ≤ delta ∧ delta < cellModulus
  | move delta => 0 ≤ delta ∧ delta < pointerModulus
  | write | read => True

/-- Two commands whose operators, side by side, would be read as one command. -/
def Joins : Command → Command → Prop
  | add _, add _ | move _, move _ => True
  | _, _ => False

variable {c d e joint : Command}

/-- The commands that join are those that have a joint command. -/
theorem join?_eq_none_iff : c.join? d = none ↔ ¬ c.Joins d := by
  cases c <;> cases d <;> simp [join?, Joins]

/-- A joint command is in range. -/
theorem inRange_of_join? (h : c.join? d = some joint) : joint.InRange := by
  unfold join? at h
  split at h
  · cases h
    exact ⟨Int.emod_nonneg _ (by decide), Int.emod_lt_of_pos _ (by decide)⟩
  · cases h
    exact ⟨Int.emod_nonneg _ (by decide), Int.emod_lt_of_pos _ (by decide)⟩
  · cases h

/-- A joint command joins what its second part joins. -/
theorem joins_of_join? (h : c.join? d = some joint) : joint.Joins e ↔ d.Joins e := by
  unfold join? at h
  split at h <;> cases h <;> cases e <;> rfl

/-- A command joins what is joined to the first of two commands exactly when it joins this one. -/
theorem joins_iff_of_join? (h : c.join? d = some joint) : e.Joins joint ↔ e.Joins c := by
  unfold join? at h
  split at h <;> cases h <;> cases e <;> rfl

/-- Of three commands that join, any two neighbours can be joined first. -/
theorem exists_join?_assoc {f : Command} (h : c.join? d = some joint) (h' : d.join? e = some f) :
    ∃ whole, c.join? f = some whole ∧ joint.join? e = some whole := by
  cases c <;> cases d <;> cases h <;> cases e <;> cases h' <;>
    exact ⟨_, rfl, by simp [join?, Int.add_assoc]⟩

/-- The command of an operator is in range. -/
theorem inRange_of_command? {op : Operator} (h : op.command? = some c) : c.InRange := by
  cases op <;> cases h <;> trivial

end Command

namespace Block

/-- The block starts with a command that would join the given one. -/
def StartsLike (c : Command) : Block → Prop
  | command d _ => c.Joins d
  | nil | loop _ _ => False

/-- A command in front of a block. It joins a command that already stands there, if it can. -/
def cons (c : Command) : Block → Block
  | command d rest =>
      match c.join? d with
      | some joint => command joint rest
      | none => command c (command d rest)
  | rest => command c rest

variable {c d joint : Command} {rest tail : Block} {op : Operator}

/-- A command in front of one that it joins becomes a part of it. -/
theorem cons_of_join? (h : c.join? d = some joint) :
    cons c (command d rest) = command joint rest := by
  simp [cons, h]

/-- A command that joins nothing stands for itself. -/
theorem cons_of_not_startsLike (h : ¬ rest.StartsLike c) : cons c rest = command c rest := by
  cases rest with
  | nil | loop => rfl
  | command d rest => simp [cons, Command.join?_eq_none_iff.mpr h]

/-- In front of a block, a command is joined with the first command of it or stands for itself. -/
theorem cons_cases (c : Command) (rest : Block) :
    (∃ d tail joint, rest = command d tail ∧ c.join? d = some joint ∧
      cons c rest = command joint tail) ∨
    ¬ rest.StartsLike c ∧ cons c rest = command c rest := by
  cases rest with
  | nil | loop => exact .inr ⟨id, rfl⟩
  | command d tail =>
      cases hjoin : c.join? d with
      | some joint => exact .inl ⟨d, tail, joint, rfl, hjoin, cons_of_join? hjoin⟩
      | none =>
          have hstart : ¬ (command d tail).StartsLike c := Command.join?_eq_none_iff.mp hjoin
          exact .inr ⟨hstart, cons_of_not_startsLike hstart⟩

/-- A block starts with what a joint command joins exactly when it starts with what the second part
of it joins. -/
theorem startsLike_of_join? (h : c.join? d = some joint) :
    rest.StartsLike joint ↔ rest.StartsLike d := by
  cases rest with
  | nil | loop => rfl
  | command e _ => exact Command.joins_of_join? h

/-- Two commands that join are joined in front of a block at once or one after the other. -/
theorem cons_cons_of_join? (h : c.join? d = some joint) :
    cons c (cons d rest) = cons joint rest := by
  obtain ⟨e, tail, inner, rfl, hinner, hcons⟩ | ⟨hstart, hcons⟩ := cons_cases d rest
  · obtain ⟨whole, hleft, hright⟩ := Command.exists_join?_assoc h hinner
    rw [hcons, cons_of_join? hleft, cons_of_join? hright]
  · rw [← startsLike_of_join? h] at hstart
    rw [hcons, cons_of_join? h, cons_of_not_startsLike hstart]

/-- Reading an operator that is not a bracket puts its command in front of the block at hand. -/
theorem Draft.cons_of_command? (h : op.command? = some c) (draft : Draft) :
    draft.cons op = { draft with block := Block.cons c draft.block } := by
  obtain ⟨block, following⟩ := draft
  cases op <;> cases h <;>
    first
    | rfl
    | (cases block with
      | nil | loop => rfl
      | command d tail => cases d <;> rfl)

/-! ## Reading balanced operators -/

/-- The block that operators spell in front of another block. -/
def prepend (ops : List Operator) (rest : Block) : Block :=
  (ops.foldr Draft.cons ⟨rest, []⟩).block

/-- Balanced operators change the block at hand, in a way that does not depend on the rest of
the draft, and nothing else. -/
theorem exists_foldr_cons {ops : List Operator} (h : Balanced Operator.role ops) :
    ∃ change : Block → Block, ∀ draft : Draft,
      ops.foldr Draft.cons draft = ⟨change draft.block, draft.following⟩ := by
  induction h with
  | nil => exact ⟨id, fun _ ↦ rfl⟩
  | @plain op rest hop _ ih =>
      obtain ⟨c, hc⟩ := op.exists_command? hop
      obtain ⟨change, hchange⟩ := ih
      refine ⟨fun block ↦ cons c (change block), fun draft ↦ ?_⟩
      rw [List.foldr_cons, hchange, Draft.cons_of_command? hc]
  | @pair a z body rest ha _ hz _ ihBody ihRest =>
      obtain rfl := Operator.eq_opening_of_role ha
      obtain rfl := Operator.eq_closing_of_role hz
      obtain ⟨inner, hinner⟩ := ihBody
      obtain ⟨outer, houter⟩ := ihRest
      -- the closing bracket sets the block behind it aside, and the opening one takes it back
      refine ⟨fun block ↦ loop (inner nil) (outer block), fun draft ↦ ?_⟩
      rw [List.foldr_cons, List.foldr_append, List.foldr_cons, houter, hinner]
      rfl

/-- A draft in front of which balanced operators are read changes in its block only. -/
theorem foldr_cons_of_balanced {ops : List Operator} (h : Balanced Operator.role ops)
    (draft : Draft) :
    ops.foldr Draft.cons draft = ⟨prepend ops draft.block, draft.following⟩ := by
  obtain ⟨change, hchange⟩ := exists_foldr_cons h
  rw [prepend, hchange, hchange]

/-- An operator that is not a bracket is read as its command in front of what follows. -/
theorem prepend_cons {ops : List Operator} (hop : op.command? = some c)
    (h : Balanced Operator.role ops) (rest : Block) :
    prepend (op :: ops) rest = cons c (prepend ops rest) := by
  rw [prepend, List.foldr_cons, foldr_cons_of_balanced h, Draft.cons_of_command? hop]

/-- A pair of brackets in front of operators is a loop in front of their block. -/
theorem prepend_pair {body ops : List Operator} (hbody : Balanced Operator.role body)
    (h : Balanced Operator.role ops) (rest : Block) :
    prepend (.opening :: (body ++ .closing :: ops)) rest =
      loop (prepend body nil) (prepend ops rest) := by
  rw [prepend, List.foldr_cons, List.foldr_append, List.foldr_cons, foldr_cons_of_balanced h,
    foldr_cons_of_balanced hbody]
  rfl

/-! ## Normal blocks -/

/-- Blocks as reading produces them: deltas are in range, and no command stands in front of one
that it would join. -/
def Normal : Block → Prop
  | nil => True
  | command c rest => c.InRange ∧ ¬ rest.StartsLike c ∧ rest.Normal
  | loop body rest => body.Normal ∧ rest.Normal

/-- A command in front of a normal block is read as a normal block. -/
theorem normal_cons (hrange : c.InRange) (h : rest.Normal) : (cons c rest).Normal := by
  obtain ⟨d, tail, joint, rfl, hjoin, hcons⟩ | ⟨hstart, hcons⟩ := cons_cases c rest
  · obtain ⟨_, hstart, htail⟩ := h
    rw [← startsLike_of_join? hjoin] at hstart
    rw [hcons]
    exact ⟨Command.inRange_of_join? hjoin, hstart, htail⟩
  · rw [hcons]
    exact ⟨hrange, hstart, h⟩

/-- A draft all of whose blocks are normal. -/
def Draft.Normal (draft : Draft) : Prop :=
  draft.block.Normal ∧ ∀ block ∈ draft.following, block.Normal

/-- Reading one more operator keeps a draft normal. -/
theorem Draft.normal_cons {draft : Draft} (h : draft.Normal) (op : Operator) :
    (draft.cons op).Normal := by
  obtain ⟨hblock, hfollowing⟩ := h
  cases hc : op.command? with
  | some c =>
      rw [Draft.cons_of_command? hc]
      exact ⟨Block.normal_cons (Command.inRange_of_command? hc) hblock, hfollowing⟩
  | none =>
      cases op with
      | closing => exact ⟨trivial, List.forall_mem_cons.mpr ⟨hblock, hfollowing⟩⟩
      | opening =>
          obtain ⟨block, following⟩ := draft
          cases following with
          | nil => exact ⟨hblock, hfollowing⟩
          | cons rest outer =>
              obtain ⟨hrest, houter⟩ := List.forall_mem_cons.mp hfollowing
              exact ⟨⟨hblock, hrest⟩, houter⟩
      | _ => cases hc

/-- Whatever operators are read, the block is normal. -/
theorem normal_ofOperators (ops : List Operator) : (ofOperators ops).Normal := by
  have hdraft : (ops.foldr Draft.cons ⟨nil, []⟩).Normal := by
    induction ops with
    | nil => exact ⟨trivial, by simp⟩
    | cons op ops ih => exact Draft.normal_cons ih op
  exact hdraft.1

end Block

end TapeMachine
