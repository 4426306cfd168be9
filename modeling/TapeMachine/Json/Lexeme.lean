import TapeMachine.Json
import TapeMachine.Text.Hex

/-!
# Strings and numbers of JSON

Strings hold no control characters. An escaped surrogate pair is one character; a surrogate that
stands alone, escaped or not, stays a surrogate. Numbers have no leading zeros.
-/

namespace TapeMachine.Document

open Text

/-- Why a text is not read. -/
inductive ReadFault where
  | malformed
  | oversizedInteger
  | tooDeep
deriving DecidableEq, Inhabited

/-- What a reader accepts: the largest number of digits of an integer, the largest number of
arrays and objects that lie inside each other, and how many of these levels must be left where a
broken string or a wrong separator is to be described. -/
structure Limits where
  digits : Nat
  depth : Nat
  margin : Nat
deriving DecidableEq, Inhabited

/-- The fault of a broken string or a wrong separator. It is described where it stands, and counts
as too deep if too few levels are left there. A missing value is described from outside, so that
its depth does not matter. -/
def Limits.fault (limits : Limits) : ReadFault :=
  if limits.depth < limits.margin then .tooDeep else .malformed

/-- The result of reading from the front of a text: a value and the text behind it. -/
abbrev Read (α : Type) :=
  Except ReadFault (α × List CodePoint)

/-- A blank of JSON: space, tab, newline or carriage return. -/
def isBlank (p : CodePoint) : Bool :=
  p = .char ' ' || p = .char '\t' || p = .char '\n' || p = .char '\r'

/-- Drop the blanks in front. -/
def skipBlanks (text : List CodePoint) : List CodePoint :=
  text.dropWhile isBlank

/-- The value of four hexadecimal digits. -/
def hexUnit? (a b c d : Char) : Option Nat := do
  let a ← hexValue? a
  let b ← hexValue? b
  let c ← hexValue? c
  let d ← hexValue? d
  pure (a * 4096 + b * 256 + c * 16 + d)

/-- What can stand behind the backslash of a short escape, and the character it means. -/
def shortEscape? : Char → Option Char
  | '"' => some '"'
  | '\\' => some '\\'
  | '/' => some '/'
  | 'b' => some '\x08'
  | 'f' => some '\x0c'
  | 'n' => some '\n'
  | 'r' => some '\r'
  | 't' => some '\t'
  | _ => none

/-- What has been read of a string, last code point first, after the first half of a surrogate
pair, if there is one, has turned out to stand alone. -/
def settle (high : Option Nat) (read : List CodePoint) : List CodePoint :=
  match high with
  | some code => .surrogate code :: read
  | none => read

/-- A string behind its opening quotation mark. What has been read of it stands in `read`, last
code point first; `high` is the first half of a surrogate pair that has just been read as an
escape. -/
def readStringBody? (high : Option Nat) (read : List CodePoint) :
    List CodePoint → Option (List CodePoint × List CodePoint)
  | [] => none
  | .char '"' :: rest => some ((settle high read).reverse, rest)
  | .char '\\' :: .char 'u' :: .char a :: .char b :: .char c :: .char d :: rest =>
      match hexUnit? a b c d, high with
      | none, _ => none
      | some unit, none =>
          if isHighSurrogate unit then readStringBody? (some unit) read rest
          else readStringBody? none (.ofCode unit :: read) rest
      | some unit, some first =>
          if isLowSurrogate unit then
            readStringBody? none (.char (joinSurrogates first unit) :: read) rest
          else if isHighSurrogate unit then readStringBody? (some unit) (settle high read) rest
          else readStringBody? none (.ofCode unit :: settle high read) rest
  | .char '\\' :: .char c :: rest =>
      match shortEscape? c with
      | none => none
      | some meant => readStringBody? none (.char meant :: settle high read) rest
  | .char c :: rest =>
      if c.toNat < 0x20 ∨ c = '\\' then none
      else readStringBody? none (.char c :: settle high read) rest
  | .surrogate code :: rest => readStringBody? none (.surrogate code :: settle high read) rest

/-- A string behind its opening quotation mark. -/
def readString? (text : List CodePoint) : Option (List CodePoint × List CodePoint) :=
  readStringBody? none [] text

/-- The leading digits of a text and what follows them. -/
def splitDigits (text : List CodePoint) : List Char × List CodePoint :=
  let (digits, rest) := text.span fun p ↦ p.char?.any Char.isDigit
  (digits.map CodePoint.shown, rest)

/-- The number that digits denote. -/
def digitsValue (digits : List Char) : Nat :=
  digits.foldl (fun value digit ↦ value * 10 + (digit.toNat - 48)) 0

/-- The fraction of a number: its digits, if a point and at least one digit are there. -/
def readFraction : List CodePoint → Option (List Char) × List CodePoint
  | .char '.' :: rest =>
      match splitDigits rest with
      | ([], _) => (none, .char '.' :: rest)
      | (digits, behind) => (some digits, behind)
  | text => (none, text)

/-- The exponent of a number, if it is there with at least one digit. -/
def readExponent : List CodePoint → Option Int × List CodePoint
  | [] => (none, [])
  | mark :: rest =>
      if mark = .char 'e' ∨ mark = .char 'E' then
        let (isNegative, unsigned) :=
          match rest with
          | .char '-' :: more => (true, more)
          | .char '+' :: more => (false, more)
          | more => (false, more)
        match splitDigits unsigned with
        | ([], _) => (none, mark :: rest)
        | (digits, behind) =>
            let size : Int := digitsValue digits
            (some (if isNegative then -size else size), behind)
      else
        (none, mark :: rest)

/-- A number. Its integer part is a single zero or starts with another digit; with a fraction
or an exponent it is a decimal. An integer has at most `maxDigits` digits. -/
def readNumber (maxDigits : Nat) (text : List CodePoint) : Read Document :=
  let (isNegative, unsigned) :=
    match text with
    | .char '-' :: rest => (true, rest)
    | _ => (false, text)
  let (whole, rest) :=
    match unsigned with
    | .char '0' :: rest => (['0'], rest)
    | _ => splitDigits unsigned
  if whole.isEmpty then .error .malformed
  else
    let (fraction, rest) := readFraction rest
    let (exponent, rest) := readExponent rest
    match fraction, exponent with
    | none, none =>
        let size : Int := digitsValue whole
        if maxDigits < whole.length then .error .oversizedInteger
        else .ok (.integer (if isNegative then -size else size), rest)
    | _, _ =>
        let places := fraction.getD []
        let exponent := exponent.getD 0 - places.length
        .ok (.decimal ⟨isNegative, digitsValue (whole ++ places), exponent⟩, rest)

end TapeMachine.Document
