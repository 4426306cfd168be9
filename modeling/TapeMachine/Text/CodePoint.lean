/-!
# Code points

Text that comes from outside may hold surrogates that stand alone, which are no characters. A
code point is a character or such a surrogate. A text with surrogates has no UTF-8 form;
`firstSurrogates?` finds what stands in the way.
-/

namespace TapeMachine.Text

/-- A code point of a text: a character, or a surrogate that stands alone. -/
inductive CodePoint where
  | char (c : Char)
  | surrogate (code : Nat)
deriving DecidableEq, Inhabited

/-- The code is the first half of a surrogate pair. -/
def isHighSurrogate (code : Nat) : Bool :=
  0xD800 ≤ code && code < 0xDC00

/-- The code is the second half of a surrogate pair. -/
def isLowSurrogate (code : Nat) : Bool :=
  0xDC00 ≤ code && code < 0xE000

/-- The character of a surrogate pair. -/
def joinSurrogates (high low : Nat) : Char :=
  Char.ofNat (0x10000 + (high - 0xD800) * 0x400 + (low - 0xDC00))

namespace CodePoint

/-- The code point up to `U+10FFFF` with this code. -/
def ofCode (code : Nat) : CodePoint :=
  if isHighSurrogate code || isLowSurrogate code then surrogate code else char (Char.ofNat code)

/-- The character that a code point is. -/
def char? : CodePoint → Option Char
  | char c => some c
  | surrogate _ => none

/-- A surrogate that stands alone. -/
def isSurrogate : CodePoint → Bool
  | char _ => false
  | surrogate _ => true

/-- The character that is shown for a code point: for a surrogate the replacement character. -/
def shown : CodePoint → Char
  | char c => c
  | surrogate _ => Char.ofNat 0xFFFD

end CodePoint

/-- The code points of a string. -/
def codePoints (text : String) : List CodePoint :=
  text.toList.map .char

/-- The string that is shown for code points. -/
def shownText (points : List CodePoint) : String :=
  String.ofList (points.map CodePoint.shown)

/-- The string that is shown for the code points of a string is the string. -/
@[simp] theorem shownText_codePoints (text : String) : shownText (codePoints text) = text := by
  rw [shownText, codePoints, List.map_map]
  exact (congrArg String.ofList (List.map_id _)).trans (String.ofList_toList)

/-- Surrogates that stand side by side in a text: where, the code of the first, and their
number. -/
structure SurrogateRun where
  position : Nat
  code : Nat
  length : Nat
deriving DecidableEq, Inhabited

/-- The first surrogates in a text that starts at `position`, if there are any. -/
def firstSurrogates? (position : Nat) : List CodePoint → Option SurrogateRun
  | [] => none
  | .char _ :: rest => firstSurrogates? (position + 1) rest
  | .surrogate code :: rest =>
      some ⟨position, code, (rest.takeWhile CodePoint.isSurrogate).length + 1⟩

/-- A text has no surrogates where none are found. -/
theorem firstSurrogates?_eq_none_iff {position : Nat} {points : List CodePoint} :
    firstSurrogates? position points = none ↔ ∀ p ∈ points, p.isSurrogate = false := by
  induction points generalizing position with
  | nil => simp [firstSurrogates?]
  | cons p rest ih => cases p <;> simp [firstSurrogates?, CodePoint.isSurrogate, ih]

end TapeMachine.Text
