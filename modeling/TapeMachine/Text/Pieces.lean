/-!
# Pieces of a text

A text is cut at every occurrence of a separator. There is one piece more than there are
separators, and pieces may be empty.
-/

namespace TapeMachine.Text

/-- The pieces of a text between the separators in it. -/
def pieces (separator : Char) : List Char → List (List Char)
  | [] => [[]]
  | c :: rest =>
      if c = separator then [] :: pieces separator rest
      else (pieces separator rest).modifyHead (c :: ·)

/-- The pieces of a string between the separators in it. -/
def splitAt (separator : Char) (text : String) : List String :=
  (pieces separator text.toList).map String.ofList

/-- There is always a piece. -/
theorem pieces_ne_nil (separator : Char) (text : List Char) : pieces separator text ≠ [] := by
  induction text with
  | nil => exact List.cons_ne_nil _ _
  | cons c rest ih =>
      rw [pieces]
      split
      · exact List.cons_ne_nil _ _
      · simpa using ih

/-- The pieces with the separators between them are the text. -/
theorem intercalate_pieces (separator : Char) (text : List Char) :
    [separator].intercalate (pieces separator text) = text := by
  induction text with
  | nil => rfl
  | cons c rest ih =>
      obtain ⟨first, others, hpieces⟩ := List.exists_cons_of_ne_nil (pieces_ne_nil separator rest)
      rw [hpieces] at ih
      rw [pieces, hpieces]
      split
      · rename_i h
        rw [← ih, h]
        cases others <;> simp [List.intercalate]
      · rw [← ih]
        cases others <;> simp [List.intercalate]

end TapeMachine.Text
