import TapeMachine.Text.Numeral

/-!
# Integers in request fields

A request field may give an integer as text. Plain decimal notation is read first; any other text
is tidied and then read once more. Tidying drops blanks at both ends, a plus sign, leading zeros,
single underscores and a fraction of zeros. Only ASCII digits count.
-/

namespace TapeMachine.Text

/-- Why a text gives no integer: it is no numeral, or a numeral of too many digits. -/
inductive NumeralFault where
  | malformed
  | oversized
deriving DecidableEq, Inhabited

/-- The integer in plain decimal notation: perhaps a minus sign, then a single zero or digits
that start with another one. A run of digits that is too long is refused as such, whatever stands
behind it. -/
def plainInteger (text : List Char) : Except NumeralFault Int :=
  let (isNegative, unsigned) :=
    match text with
    | '-' :: rest => (true, rest)
    | _ => (false, text)
  let digits := unsigned.takeWhile Char.isDigit
  if unsigned = ['0'] then .ok 0
  else if digits.isEmpty || digits.head? = some '0' then .error .malformed
  else if maxNumeralDigits < digits.length then .error .oversized
  else if digits.length < unsigned.length then .error .malformed
  else
    let size : Int := ofDigits (digits.map fun c ↦ c.toNat - 48)
    .ok (if isNegative then -size else size)

/-- Drop the zeros that lead a numeral, and underscores among them. What is left starts with
another digit or with a minus sign; where only a fraction or nothing follows, the last of the
characters dropped is kept. -/
def dropLeadingZeros : List Char → Option (List Char)
  | '0' :: rest =>
      let zeros := '0' :: rest.takeWhile fun c ↦ c = '0' || c = '_'
      let last := zeros.getLast?.toList
      match rest.dropWhile fun c ↦ c = '0' || c = '_' with
      | [] => some last
      | '.' :: places => some (last ++ '.' :: places)
      | c :: behind => if ('1' ≤ c ∧ c ≤ '9') ∨ c = '-' then some (c :: behind) else none
  | c :: rest => if '1' ≤ c ∧ c ≤ '9' then some (c :: rest) else none
  | [] => none

/-- Drop a fraction of at least one zero and nothing else. -/
def dropZeroFraction (text : List Char) : List Char :=
  match text.dropWhile (· ≠ '.') with
  | '.' :: '0' :: places =>
      if places.all (· = '0') then text.takeWhile (· ≠ '.') else text
  | _ => text

/-- Two underscores stand side by side. -/
def hasDoubleUnderscore : List Char → Bool
  | '_' :: '_' :: _ => true
  | _ :: rest => hasDoubleUnderscore rest
  | [] => false

/-- Drop underscores, if each of them stands alone between other characters. -/
def dropUnderscores (text : List Char) : Option (List Char) :=
  if text.head? = some '_' || text.getLast? = some '_' || hasDoubleUnderscore text then none
  else some (text.filter (· ≠ '_'))

/-- A tidied numeral. A minus sign is set aside while the digits behind it are tidied. -/
def tidied? (text : List Char) : Option (List Char) := do
  let trimmed := trimBlanks text
  let (sign, unsigned) :=
    match trimmed with
    | '-' :: rest => (['-'], rest)
    | '+' :: rest => ([], rest)
    | _ => ([], trimmed)
  let whole ← dropLeadingZeros unsigned
  let digits ← dropUnderscores (dropZeroFraction whole)
  pure (sign ++ digits)

/-- The integer that the text of a request field gives. Only text that needs no tidying is found
to be too long; a tidied numeral that is too long is malformed. -/
def fieldInteger (text : String) : Except NumeralFault Int :=
  match plainInteger text.toList with
  | .error .malformed =>
      match (tidied? text.toList).map plainInteger with
      | some (.ok value) => .ok value
      | _ => .error .malformed
  | result => result

end TapeMachine.Text
