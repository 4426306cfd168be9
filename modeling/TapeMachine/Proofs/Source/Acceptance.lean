import TapeMachine.Proofs.Source.OnePass

/-!
# Accepted sources

The scan for bracket faults accepts exactly the balanced sources, `bracketFault?_eq_none_iff`. So
what a source compiles to can be said in two parts, `compile_eq`: its brackets are looked at first,
and its operators are read as a block where there is no fault in them.
-/

namespace TapeMachine

namespace Source

variable {body rest source : Source} {position : Nat} {opened : List Nat}

/-- The scan passes over a balanced source and has the same brackets open behind it. -/
theorem bracketFaultFrom?_append (h : Balanced role body) (position : Nat) (opened : List Nat) :
    bracketFaultFrom? position opened (body ++ rest) =
      bracketFaultFrom? (position + body.length) opened rest := by
  induction h generalizing position opened rest with
  | nil => rfl
  | @plain b body hb _ ih =>
      have hstep : bracketFaultFrom? position opened (b :: (body ++ rest)) =
          bracketFaultFrom? (position + 1) opened (body ++ rest) := by
        unfold role at hb
        simp only [bracketFaultFrom?]
        split
        · rename_i hopen
          rw [hopen] at hb
          cases hb
        · rename_i hclose
          rw [hclose] at hb
          cases hb
        · rfl
      rw [List.cons_append, hstep, ih, List.length_cons]
      congr 1
      omega
  | @pair a z body tail ha _ hz _ ihBody ihTail =>
      have hopen := ofByte?_of_role_opening ha
      have hclose := ofByte?_of_role_closing hz
      simp only [List.cons_append, List.append_assoc, bracketFaultFrom?, hopen, hclose, ihBody,
        ihTail, List.length_cons, List.length_append]
      congr 1
      omega

/-- The scan finds no fault in a balanced source. -/
theorem bracketFault?_of_balanced (h : Balanced role source) : source.bracketFault? = none := by
  have hscan : bracketFaultFrom? 0 [] (source ++ []) =
      bracketFaultFrom? (0 + source.length) [] [] := bracketFaultFrom?_append h 0 []
  rwa [List.append_nil] at hscan

/-- A source in which the scan finds no fault closes the brackets open before it and is balanced
otherwise. -/
theorem closes_of_bracketFaultFrom? (h : bracketFaultFrom? position opened source = none) :
    Closes role opened.length source := by
  -- the scan goes on with one bracket more or less open, so their number has to vary
  induction source generalizing position opened with
  | nil =>
      cases opened with
      | nil => exact .nil
      | cons => cases h
  | cons b source ih =>
      simp only [bracketFaultFrom?] at h
      split at h
      · rename_i hopen
        exact (ih h).cons_opening (role_of_ofByte? hopen)
      · rename_i hclose
        cases opened with
        | nil => cases h
        | cons _ outer => exact (ih h).cons_closing (role_of_ofByte? hclose)
      · refine (ih h).cons_plain ?_
        unfold role
        split
        · rename_i op _
          cases op <;> simp_all [Operator.role]
        · rfl

/-- The scan accepts exactly the balanced sources. -/
theorem bracketFault?_eq_none_iff : source.bracketFault? = none ↔ Balanced role source :=
  ⟨closes_of_bracketFaultFrom?, bracketFault?_of_balanced⟩

end Source

/-- A source is refused with the fault of its brackets, and otherwise compiles to the layout of the
block that its operators spell. -/
theorem compile_eq (source : Source) :
    compile source =
      match source.bracketFault? with
      | some fault => .error fault
      | none => .ok (Block.ofOperators source.operators).assemble := by
  cases h : source.bracketFault? with
  | some fault => exact compileFrom_eq_error h
  | none => exact compile_of_balanced (Source.bracketFault?_eq_none_iff.mp h)

/-- Exactly the balanced sources compile, each to the layout of the block that its operators
spell. -/
theorem compile_eq_ok_iff {source : Source} {program : Program} :
    compile source = .ok program ↔
      Balanced Source.role source ∧ (Block.ofOperators source.operators).assemble = program := by
  rw [← Source.bracketFault?_eq_none_iff, compile_eq]
  cases source.bracketFault? <;> simp

end TapeMachine
