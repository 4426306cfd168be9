import TapeMachine.Proofs.Source.Acceptance
import TapeMachine.Proofs.Source.Depth
import TapeMachine.Text.CodePoint

/-!
# Comments

Comments are bytes that denote no operator. A source compiles as its operators alone do, with the
position of a bracket fault counted in operators: `mapError_compile`.

So it makes no difference how many comments a source has or where they stand. The main theorem,
`compile_respaced`, says so of two sources that differ in comments only, and of texts: characters
without a byte do not even count in positions, and those from `U+0080` to `U+00FF` are comments of
one byte.
-/

namespace TapeMachine

/-- The second list comes from the first by putting in and taking out elements of this kind, any
number of them and anywhere. -/
inductive Respaced {α : Type} (Ignored : α → Prop) : List α → List α → Prop where
  | nil : Respaced Ignored [] []
  | keep (a : α) {first second : List α} (h : Respaced Ignored first second) :
      Respaced Ignored (a :: first) (a :: second)
  | insert {a : α} {first second : List α} (ha : Ignored a) (h : Respaced Ignored first second) :
      Respaced Ignored first (a :: second)
  | delete {a : α} {first second : List α} (ha : Ignored a) (h : Respaced Ignored first second) :
      Respaced Ignored (a :: first) second

/-- What maps the ignored elements to nothing maps both lists to the same. -/
theorem Respaced.filterMap_eq {α β : Type} {Ignored : α → Prop} {f : α → Option β}
    {first second : List α} (h : Respaced Ignored first second)
    (hf : ∀ a, Ignored a → f a = none) : first.filterMap f = second.filterMap f := by
  induction h with
  | nil => rfl
  | keep a _ ih => rw [List.filterMap_cons, List.filterMap_cons, ih]
  | insert ha _ ih => rw [List.filterMap_cons_none (hf _ ha), ih]
  | delete ha _ ih => rw [List.filterMap_cons_none (hf _ ha), ih]

/-- The fault with its position counted in another way. -/
def BracketFault.mapPosition (count : Nat → Nat) : BracketFault → BracketFault
  | unopened position => unopened (count position)
  | unclosed position => unclosed (count position)

namespace Source

/-- The byte denotes no operator. -/
def IsComment (b : UInt8) : Prop :=
  Operator.ofByte? b = none

/-- The number of operators in front of a position of a source. -/
def operatorsBefore (source : Source) (position : Nat) : Nat :=
  (operators (source.take position)).length

/-- Where a source has been read up to some point, as many operators are in front of that point as
have been read. -/
theorem operatorsBefore_append (front rest : Source) :
    operatorsBefore (front ++ rest) front.length = front.operators.length := by
  rw [operatorsBefore, List.take_left]

/-- The scan over the rest of a source finds the fault that it finds in the operators of the rest,
with every position counted in operators. -/
theorem map_bracketFaultFrom? (front rest : Source) (opened : List Nat) :
    (bracketFaultFrom? front.length opened rest).map
        (.mapPosition (operatorsBefore (front ++ rest))) =
      bracketFaultFrom? front.operators.length
        (opened.map (operatorsBefore (front ++ rest))) (Operator.toSource rest.operators) := by
  induction rest generalizing front opened with
  | nil => cases opened <;> rfl
  | cons b rest ih =>
      -- one byte further the same source is read, so the positions are counted as before
      have hwhole : front ++ b :: rest = (front ++ [b]) ++ rest := by simp
      have hlength : front.length + 1 = (front ++ [b]).length := by simp
      have hposition := operatorsBefore_append front (b :: rest)
      cases hop : Operator.ofByte? b with
      | none =>
          have hoperators : operators (b :: rest) = operators rest := List.filterMap_cons_none hop
          have hfront : operators (front ++ [b]) = operators front := by simp [operators, hop]
          have hread := ih (front ++ [b]) opened
          simp only [bracketFaultFrom?, hop]
          rwa [hoperators, hwhole, hlength, ← hfront]
      | some op =>
          have hoperators : operators (b :: rest) = op :: operators rest :=
            List.filterMap_cons_some hop
          have hfront : operators (front ++ [b]) = operators front ++ [op] := by
            simp [operators, hop]
          have hcount : (operators front).length + 1 = (operators (front ++ [b])).length := by
            rw [hfront, List.length_append, List.length_singleton]
          rw [hoperators, Operator.toSource, List.map_cons, ← Operator.toSource]
          cases op with
          | opening =>
              have hread := ih (front ++ [b]) (front.length :: opened)
              simp only [bracketFaultFrom?, hop, Operator.ofByte?_byte]
              rwa [hlength, hcount, ← hposition, ← List.map_cons, hwhole]
          | closing =>
              cases opened with
              | nil =>
                  simp only [bracketFaultFrom?, hop, Operator.ofByte?_byte, List.map_nil,
                    Option.map_some, BracketFault.mapPosition, hposition]
              | cons position outer =>
                  have hread := ih (front ++ [b]) outer
                  simp only [bracketFaultFrom?, hop, Operator.ofByte?_byte, List.map_cons]
                  rwa [hlength, hcount, hwhole]
          | increment | decrement | right | left | output | input =>
              have hread := ih (front ++ [b]) opened
              simp only [bracketFaultFrom?, hop, Operator.ofByte?_byte]
              rwa [hlength, hcount, hwhole]

end Source

/-- A source compiles as its operators alone do, with the position of a fault counted in
operators. -/
theorem mapError_compile (source : Source) :
    (compile source).mapError (.mapPosition source.operatorsBefore) =
      compile (Operator.toSource source.operators) := by
  have hscan : source.bracketFault?.map (.mapPosition source.operatorsBefore) =
      Source.bracketFault? (Operator.toSource source.operators) :=
    Source.map_bracketFaultFrom? [] source []
  rw [compile_eq, compile_eq, ← hscan, Source.operators_toSource]
  cases source.bracketFault? <;> rfl

/-- Sources with the same operators are accepted with the same program or refused for the same
operator. -/
theorem mapError_compile_congr {source other : Source} (h : source.operators = other.operators) :
    (compile source).mapError (BracketFault.mapPosition source.operatorsBefore) =
      (compile other).mapError (BracketFault.mapPosition other.operatorsBefore) := by
  rw [mapError_compile, mapError_compile, h]

/-- Where a source is refused, a source with the same operators is refused too. -/
theorem exists_compile_eq_error {source other : Source} {fault : BracketFault}
    (hoperators : source.operators = other.operators) (h : compile source = .error fault) :
    ∃ fault', compile other = .error fault' ∧
      fault'.mapPosition other.operatorsBefore = fault.mapPosition source.operatorsBefore := by
  have hsame := mapError_compile_congr hoperators
  rw [h] at hsame
  cases hother : compile other with
  | ok program =>
      rw [hother] at hsame
      cases hsame
  | error fault' =>
      rw [hother] at hsame
      exact ⟨fault', rfl, (Except.error.inj hsame).symm⟩

/-- A program of a source is the program of every source with the same operators. -/
theorem compile_eq_ok_of_operators {source other : Source} {program : Program}
    (hoperators : source.operators = other.operators) (h : compile source = .ok program) :
    compile other = .ok program := by
  have hsame := mapError_compile_congr hoperators
  rw [h] at hsame
  cases hother : compile other with
  | ok program' =>
      rw [hother] at hsame
      exact hsame.symm
  | error fault =>
      rw [hother] at hsame
      cases hsame

/-! ## Texts -/

namespace Text.CodePoint

/-- The code point has no byte: it is a character above `U+00FF` or a surrogate. -/
inductive Wide : CodePoint → Prop where
  | char {c : Char} (h : 0xFF < c.toNat) : Wide (.char c)
  | surrogate (code : Nat) : Wide (.surrogate code)

/-- The byte that a code point stands for in a source. -/
def byte? (p : CodePoint) : Option UInt8 :=
  if p.shown.toNat < 256 then some (UInt8.ofNat p.shown.toNat) else none

/-- A code point above `U+00FF` stands for nothing. -/
theorem Wide.byte?_eq_none {p : CodePoint} (h : p.Wide) : p.byte? = none := by
  cases h with
  | @char c h =>
      refine if_neg ?_
      show ¬ c.toNat < 256
      omega
  | surrogate code => rfl

end Text.CodePoint

namespace Source

open Text

/-- The source of a text has the bytes of its code points. -/
theorem ofText_shownText (points : List CodePoint) :
    ofText (shownText points) = points.filterMap CodePoint.byte? := by
  rw [ofText, shownText, String.toList_ofList, List.filterMap_map]
  rfl

/-- A byte from `0x80` on is a comment. -/
theorem isComment_of_le {b : UInt8} (h : 0x80 ≤ b.toNat) : IsComment b := by
  unfold IsComment
  cases hop : Operator.ofByte? b with
  | none => rfl
  | some op =>
      rw [Operator.ofByte?_eq_some_iff.mp hop] at h
      cases op <;> exact absurd h (by decide)

/-- A character from `U+0080` to `U+00FF` is a comment of one byte. -/
theorem exists_comment_of_char {c : Char} (hlow : 0x80 ≤ c.toNat) (hhigh : c.toNat ≤ 0xFF) :
    ∃ b, IsComment b ∧ (CodePoint.char c).byte? = some b := by
  have hbyte : (UInt8.ofNat c.toNat).toNat = c.toNat := by
    rw [UInt8.toNat_ofNat', Nat.mod_eq_of_lt (by omega)]
  refine ⟨UInt8.ofNat c.toNat, isComment_of_le (by omega), if_pos ?_⟩
  show c.toNat < 256
  omega

end Source

/-- Comments never matter.

Of two sources that differ in comments only, the one compiles exactly when the other does, and to
the same program. Where they are refused, they are refused for brackets of the same kind that have
as many operators in front of them. Texts that differ only in code points above `U+00FF` have the
same program, or the same fault at the same position. And a character from `U+0080` to `U+00FF`
is, wherever it stands in a text, a comment of one byte. -/
theorem compile_respaced {source other : Source}
    (h : Respaced Source.IsComment source other) :
    (∀ program, compile source = .ok program ↔ compile other = .ok program) ∧
    (∀ position, compile source = .error (.unopened position) →
      ∃ position', compile other = .error (.unopened position') ∧
        other.operatorsBefore position' = source.operatorsBefore position) ∧
    (∀ position, compile source = .error (.unclosed position) →
      ∃ position', compile other = .error (.unclosed position') ∧
        other.operatorsBefore position' = source.operatorsBefore position) ∧
    (∀ text text' : List Text.CodePoint, Respaced Text.CodePoint.Wide text text' →
      compile (Source.ofText (Text.shownText text)) =
        compile (Source.ofText (Text.shownText text'))) ∧
    ∀ c : Char, 0x80 ≤ c.toNat → c.toNat ≤ 0xFF → ∃ b, Source.IsComment b ∧
      ∀ front back : List Text.CodePoint,
        Source.ofText (Text.shownText (front ++ .char c :: back)) =
          Source.ofText (Text.shownText front) ++ b :: Source.ofText (Text.shownText back) := by
  have hoperators : source.operators = other.operators := h.filterMap_eq fun _ ha ↦ ha
  refine ⟨fun program ↦ ?_, fun position hrefused ↦ ?_, fun position hrefused ↦ ?_,
    fun text text' htext ↦ ?_, fun c hlow hhigh ↦ ?_⟩
  · exact ⟨compile_eq_ok_of_operators hoperators, compile_eq_ok_of_operators hoperators.symm⟩
  · obtain ⟨fault, hother, hcount⟩ := exists_compile_eq_error hoperators hrefused
    cases fault with
    | unopened position' => exact ⟨position', hother, BracketFault.unopened.inj hcount⟩
    | unclosed position' => cases hcount
  · obtain ⟨fault, hother, hcount⟩ := exists_compile_eq_error hoperators hrefused
    cases fault with
    | unopened position' => cases hcount
    | unclosed position' => exact ⟨position', hother, BracketFault.unclosed.inj hcount⟩
  · have hbytes := htext.filterMap_eq fun _ ha ↦ ha.byte?_eq_none
    rw [Source.ofText_shownText, Source.ofText_shownText, hbytes]
  · obtain ⟨b, hcomment, hbyte⟩ := Source.exists_comment_of_char hlow hhigh
    refine ⟨b, hcomment, fun front back ↦ ?_⟩
    simp only [Source.ofText_shownText, List.filterMap_append, List.filterMap_cons_some hbyte]

/-- A closing bracket behind a run is refused as well where comments stand in the run and behind
the bracket, and has two operators in front of it as before. -/
theorem compile_respaced_unopened :
    compile [0x2B, 0x2D, 0x5D] = .error (.unopened 2) ∧
      ∃ position, compile [0x2B, 0x63, 0x2D, 0x5D, 0x64] = .error (.unopened position) ∧
        Source.operatorsBefore [0x2B, 0x63, 0x2D, 0x5D, 0x64] position = 2 := by
  have hrefused : compile [0x2B, 0x2D, 0x5D] = .error (.unopened 2) := rfl
  have hrespaced : Respaced Source.IsComment [0x2B, 0x2D, 0x5D] [0x2B, 0x63, 0x2D, 0x5D, 0x64] :=
    .keep _ (.insert rfl (.keep _ (.keep _ (.insert rfl .nil))))
  exact ⟨hrefused, (compile_respaced hrespaced).2.1 2 hrefused⟩

end TapeMachine
