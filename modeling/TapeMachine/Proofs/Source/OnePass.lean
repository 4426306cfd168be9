import TapeMachine.Proofs.Block.Reading

/-!
# The pass over a source

Read from left to right, a source extends the program that it is appended to. `Block.extend` says by
what: by the layout of the block that the operators spell, except that a command at the start of the
block joins one at the end of the program. The pass over balanced operators is `Block.extend` by
their block, `compileFrom_append`; the loops that are open meanwhile, and what has been laid out
before, stay as they are.

`Source.bracketFault?` looks at the brackets alone. Where it finds a fault, the pass stops with this
fault, `compileFrom_eq_error`.
-/

namespace TapeMachine

/-! ## Commands at the end of a program -/

namespace Program

/-- The program ends with a command that would join the given one. -/
def EndsLike (c : Command) (program : Program) : Prop :=
  ∃ (front : Program) (d : Command), program = front.push (.command d) ∧ d.Joins c

variable {program front : Program} {c d joint : Command}

/-- A program ends with the command that has been appended last. -/
theorem endsLike_push : EndsLike c (front.push (.command d)) ↔ d.Joins c := by
  constructor
  · rintro ⟨_, _, heq, hjoins⟩
    obtain ⟨hlast, _⟩ := Array.push_eq_push.mp heq
    cases hlast
    exact hjoins
  · intro h
    exact ⟨front, d, rfl, h⟩

/-- A command behind one that it joins becomes a part of it. -/
theorem pushCommand_of_join? (h : d.join? c = some joint) :
    pushCommand (front.push (.command d)) c = front.push (.command joint) := by
  simp [pushCommand, h]

/-- A command behind a program is joined with the last command of it or stands for itself. -/
theorem pushCommand_cases (program : Program) (c : Command) :
    (∃ (front : Program) (d joint : Command), program = front.push (.command d) ∧
      d.join? c = some joint ∧ program.pushCommand c = front.push (.command joint)) ∨
    ¬ program.EndsLike c ∧ program.pushCommand c = program.push (.command c) := by
  cases hlast : program.back? with
  | none =>
      refine .inr ⟨?_, by simp [pushCommand, hlast]⟩
      rintro ⟨front, d, rfl, _⟩
      simp at hlast
  | some last =>
      obtain ⟨front, rfl⟩ := Array.back?_eq_some_iff.mp hlast
      cases last with
      | command d =>
          cases hjoin : d.join? c with
          | some joint => exact .inl ⟨front, d, joint, rfl, hjoin, pushCommand_of_join? hjoin⟩
          | none =>
              refine .inr ⟨?_, by simp [pushCommand, hjoin]⟩
              rw [endsLike_push]
              exact Command.join?_eq_none_iff.mp hjoin
      | loopStart | loopEnd =>
          refine .inr ⟨?_, by simp [pushCommand]⟩
          rintro ⟨_, _, heq, _⟩
          cases (Array.push_eq_push.mp heq).1

/-- A command that joins nothing stands for itself. -/
theorem pushCommand_of_not_endsLike (h : ¬ program.EndsLike c) :
    program.pushCommand c = program.push (.command c) := by
  obtain ⟨front, d, joint, rfl, hjoin, _⟩ | ⟨_, hpush⟩ := pushCommand_cases program c
  · rw [endsLike_push, ← Command.join?_eq_none_iff, hjoin] at h
    cases h
  · exact hpush

/-- A program ends like a command that has been appended to it, joined or not. -/
theorem endsLike_pushCommand : (program.pushCommand c).EndsLike d ↔ c.Joins d := by
  obtain ⟨_, _, _, _, hjoin, hpush⟩ | ⟨_, hpush⟩ := pushCommand_cases program c
  · rw [hpush, endsLike_push, Command.joins_of_join? hjoin]
  · rw [hpush, endsLike_push]

/-- Two commands that join are joined behind a program at once or one after the other. -/
theorem pushCommand_pushCommand (h : c.join? d = some joint) :
    (program.pushCommand c).pushCommand d = program.pushCommand joint := by
  obtain ⟨front, e, inner, rfl, hinner, hpush⟩ | ⟨hend, hpush⟩ := pushCommand_cases program c
  · obtain ⟨whole, hright, hleft⟩ := Command.exists_join?_assoc hinner h
    rw [hpush, pushCommand_of_join? hleft, pushCommand_of_join? hright]
  · have hjoint : ¬ program.EndsLike joint := by
      rintro ⟨front, e, heq, hjoins⟩
      exact hend ⟨front, e, heq, (Command.joins_iff_of_join? h).mp hjoins⟩
    rw [hpush, pushCommand_of_join? h, pushCommand_of_not_endsLike hjoint]

end Program

/-! ## Programs extended by a block -/

namespace Block

/-- Append the instructions of a block to a program. A command at the start of the block joins one
at the end of the program. -/
def extend (program : Program) : Block → Program
  | command c rest => rest.emit (program.pushCommand c)
  | block => block.emit program

/-- A command in front of the block is appended before the rest of it. -/
theorem extend_cons (program : Program) (c : Command) (rest : Block) :
    (cons c rest).extend program = rest.extend (program.pushCommand c) := by
  obtain ⟨d, tail, joint, rfl, hjoin, hcons⟩ | ⟨hstart, hcons⟩ := cons_cases c rest
  · rw [hcons, extend, extend, Program.pushCommand_pushCommand hjoin]
  · rw [hcons, extend]
    cases rest with
    | nil | loop => rfl
    | command d tail =>
        have hend : ¬ (program.pushCommand c).EndsLike d :=
          mt Program.endsLike_pushCommand.mp hstart
        rw [emit, extend, Program.pushCommand_of_not_endsLike hend]

/-- Behind an instruction that is no command nothing is joined. -/
theorem extend_push {last : Instruction} (h : ∀ c, last ≠ .command c) (program : Program)
    (block : Block) : block.extend (program.push last) = block.emit (program.push last) := by
  have hend : ∀ c, ¬ Program.EndsLike c (program.push last) := by
    rintro c ⟨_, d, heq, _⟩
    exact h d (Array.push_eq_push.mp heq).1
  cases block with
  | nil | loop => rfl
  | command c rest => rw [extend, emit, Program.pushCommand_of_not_endsLike (hend c)]

/-- A block by itself is assembled. -/
theorem extend_empty (block : Block) : block.extend #[] = block.assemble := by
  cases block <;> rfl

end Block

/-! ## The pass over balanced operators -/

/-- Reading an operator that is not a bracket appends its command. -/
theorem Scan.step_of_command? {op : Operator} {c : Command} (h : op.command? = some c)
    (position : Nat) (scan : Scan) : scan.step position op = .ok (scan.pushCommand c) := by
  cases op <;> cases h <;> rfl

/-- The pass over a balanced source extends the program by the block of its operators, and has the
same loops open behind it. -/
theorem compileFrom_append {body rest : Source} (h : Balanced Source.role body) (position : Nat)
    (scan : Scan) :
    compileFrom position scan (body ++ rest) = compileFrom (position + body.length)
      ⟨(Block.ofOperators (Source.operators body)).extend scan.program, scan.opened⟩ rest := by
  induction h generalizing position scan rest with
  | nil => rfl
  | @plain b body hb hbody ih =>
      rw [List.cons_append, List.length_cons, Nat.add_comm body.length, ← Nat.add_assoc]
      cases hop : Operator.ofByte? b with
      | none =>
          have hoperators : Source.operators (b :: body) = Source.operators body :=
            List.filterMap_cons_none hop
          simp only [compileFrom, hop, hoperators]
          exact ih (position + 1) scan
      | some op =>
          have hoperators : Source.operators (b :: body) = op :: Source.operators body :=
            List.filterMap_cons_some hop
          obtain ⟨c, hc⟩ := op.exists_command? ((Source.role_of_ofByte? hop).symm.trans hb)
          have hblock : Block.ofOperators (Source.operators (b :: body)) =
              .cons c (Block.ofOperators (Source.operators body)) := by
            rw [hoperators]
            exact Block.prepend_cons hc (Source.balanced_operators hbody) .nil
          simp only [compileFrom, hop, Scan.step_of_command? hc]
          rw [ih, hblock, Block.extend_cons]
          rfl
  | @pair a z body tail ha hbody hz htail ihBody ihTail =>
      have hopen := Source.ofByte?_of_role_opening ha
      have hclose := Source.ofByte?_of_role_closing hz
      have hoperators : Source.operators (a :: (body ++ z :: tail)) =
          .opening :: (Source.operators body ++ .closing :: Source.operators tail) := by
        rw [Source.operators, List.filterMap_cons_some hopen, List.filterMap_append,
          List.filterMap_cons_some hclose]
        rfl
      have hblock : Block.ofOperators (Source.operators (a :: (body ++ z :: tail))) =
          .loop (Block.ofOperators (Source.operators body))
            (Block.ofOperators (Source.operators tail)) := by
        rw [hoperators]
        exact Block.prepend_pair (Source.balanced_operators hbody)
          (Source.balanced_operators htail) .nil
      have hlength : position + (a :: (body ++ z :: tail)).length =
          position + 1 + body.length + 1 + tail.length := by
        simp only [List.length_cons, List.length_append]
        omega
      -- the body is read behind a loop start, the rest behind a loop end: neither joins anything
      rw [hblock, hlength]
      simp only [List.cons_append, List.append_assoc, compileFrom, hopen, hclose, Scan.step, ihBody,
        ihTail]
      rw [Block.extend_push, Block.extend_push]
      · rfl
      all_goals simp

/-- A balanced source compiles to the layout of the block that its operators spell. -/
theorem compile_of_balanced {source : Source} (h : Balanced Source.role source) :
    compile source = .ok (Block.ofOperators source.operators).assemble := by
  rw [compile, ← List.append_nil source, compileFrom_append h, Block.extend_empty,
    List.append_nil]
  rfl

/-! ## Where the pass fails -/

namespace Source

/-- The fault found in the brackets when scanning on from `position`, where `opened` holds the
positions of the brackets that are open there, innermost first. -/
def bracketFaultFrom? (position : Nat) (opened : List Nat) : Source → Option BracketFault
  | [] => opened.head?.map .unclosed
  | b :: rest =>
      match Operator.ofByte? b with
      | some .opening => bracketFaultFrom? (position + 1) (position :: opened) rest
      | some .closing =>
          match opened with
          | [] => some (.unopened position)
          | _ :: outer => bracketFaultFrom? (position + 1) outer rest
      | _ => bracketFaultFrom? (position + 1) opened rest

/-- The fault of a whole source, `none` when its brackets pair up. -/
def bracketFault? (source : Source) : Option BracketFault :=
  bracketFaultFrom? 0 [] source

end Source

/-- The pass fails where the scan of the brackets alone fails. -/
theorem compileFrom_eq_error {position : Nat} {scan : Scan} {source : Source} {fault : BracketFault}
    (h : source.bracketFaultFrom? position (scan.opened.map OpenLoop.position) = some fault) :
    compileFrom position scan source = .error fault := by
  induction source generalizing position scan with
  | nil =>
      obtain ⟨program, opened⟩ := scan
      cases opened with
      | nil => cases h
      | cons =>
          cases h
          rfl
  | cons b source ih =>
      simp only [Source.bracketFaultFrom?] at h
      cases hop : Operator.ofByte? b with
      | none =>
          rw [hop] at h
          simp only [compileFrom, hop]
          exact ih h
      | some op =>
          rw [hop] at h
          cases op with
          | closing =>
              obtain ⟨program, opened⟩ := scan
              cases opened with
              | nil =>
                  cases h
                  simp only [compileFrom, hop, Scan.step]
              | cons =>
                  simp only [compileFrom, hop, Scan.step]
                  exact ih h
          | _ =>
              simp only [compileFrom, hop, Scan.step]
              exact ih h

end TapeMachine
