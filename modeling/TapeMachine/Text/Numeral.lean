/-!
# Blanks, digits and integer text

Which characters count as blank space and as decimal digits, and the reading of an integer from
the text of a command line, which knows the digits of every script.
-/

namespace TapeMachine.Text

/-- A character of white space, in the sense of Unicode. -/
def isBlank (c : Char) : Bool :=
  let code := c.toNat
  (9 ≤ code && code ≤ 13) || code = 0x20 || code = 0x85 || code = 0xA0 || code = 0x1680 ||
    (0x2000 ≤ code && code ≤ 0x200A) || code = 0x2028 || code = 0x2029 || code = 0x202F ||
    code = 0x205F || code = 0x3000

/-- Every character that is white space in ASCII is blank. -/
theorem isBlank_of_isWhitespace {c : Char} (h : c.isWhitespace = true) : isBlank c = true := by
  simp only [Char.isWhitespace, Bool.or_eq_true, decide_eq_true_eq] at h
  rcases h with ((h | h) | h) | h <;> subst h <;> rfl

/-- A text without the blanks at both ends. -/
def trimBlanks (text : List Char) : List Char :=
  ((text.dropWhile isBlank).reverse.dropWhile isBlank).reverse

/-- The code points of the zeros of all scripts with decimal digits. The nine other digits of a
script follow its zero. -/
def zeros : List Nat :=
  [0x30, 0x660, 0x6F0, 0x7C0, 0x966, 0x9E6, 0xA66, 0xAE6, 0xB66, 0xBE6, 0xC66, 0xCE6, 0xD66,
    0xDE6, 0xE50, 0xED0, 0xF20, 0x1040, 0x1090, 0x17E0, 0x1810, 0x1946, 0x19D0, 0x1A80, 0x1A90,
    0x1B50, 0x1BB0, 0x1C40, 0x1C50, 0xA620, 0xA8D0, 0xA900, 0xA9D0, 0xA9F0, 0xAA50, 0xABF0,
    0xFF10, 0x104A0, 0x10D30, 0x11066, 0x110F0, 0x11136, 0x111D0, 0x112F0, 0x11450, 0x114D0,
    0x11650, 0x116C0, 0x11730, 0x118E0, 0x11950, 0x11C50, 0x11D50, 0x11DA0, 0x16A60, 0x16AC0,
    0x16B50, 0x1D7CE, 0x1D7D8, 0x1D7E2, 0x1D7EC, 0x1D7F6, 0x1E140, 0x1E2F0, 0x1E950, 0x1FBF0]

/-- The value of a decimal digit of any script. -/
def digitValue? (c : Char) : Option Nat :=
  let code := c.toNat
  (zeros.find? fun base ↦ base ≤ code && code < base + 10).map fun base ↦ code - base

/-- A decimal digit of any script. -/
def isDigit (c : Char) : Bool :=
  (digitValue? c).isSome

/-- The digits of a numeral in which single underscores may stand between digits. -/
def numeralDigits? : List Char → Option (List Nat)
  | [] => none
  | [c] => (digitValue? c).map ([·])
  | c :: '_' :: rest => do
      let digit ← digitValue? c
      let digits ← numeralDigits? rest
      pure (digit :: digits)
  | c :: rest => do
      let digit ← digitValue? c
      let digits ← numeralDigits? rest
      pure (digit :: digits)

/-- The number with these decimal digits. -/
def ofDigits (digits : List Nat) : Nat :=
  digits.foldl (fun value digit ↦ value * 10 + digit) 0

/-- The largest number of digits of an integer in a text. -/
def maxNumeralDigits : Nat :=
  4300

/-- The integer that a text denotes: blanks around it, a sign and single underscores between
digits are allowed. -/
def integer? (text : String) : Option Int := do
  let trimmed := trimBlanks text.toList
  let (negative, unsigned) :=
    match trimmed with
    | '-' :: rest => (true, rest)
    | '+' :: rest => (false, rest)
    | _ => (false, trimmed)
  let digits ← numeralDigits? unsigned
  if maxNumeralDigits < digits.length then none
  else
    let size : Int := ofDigits digits
    pure (if negative then -size else size)

/-- A negative number in the sense of a command line: a minus sign and digits, or a minus sign,
perhaps digits, a point and digits. One newline may follow. -/
def isNegativeNumeral (text : String) : Bool :=
  match text.toList with
  | '-' :: rest =>
      let body := if rest.getLast? = some '\n' then rest.dropLast else rest
      match body.dropWhile isDigit with
      | [] => !body.isEmpty
      | '.' :: places => !places.isEmpty && places.all isDigit
      | _ => false
  | _ => false

end TapeMachine.Text
