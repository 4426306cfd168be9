import TapeMachine.Decimal

/-!
# Binary64 numbers

A decimal is held as the binary64 number nearest to it, of two that are equally near the one
with the even significand. Arithmetic is exact on natural numbers. A decimal beyond the range has
no number.
-/

namespace TapeMachine

/-- The number `significand * 2 ^ exponent`, with a minus sign in front if it is negative. The
significand has 53 binary digits, or fewer where the exponent is the least one. -/
structure Binary64 where
  isNegative : Bool
  significand : Nat
  exponent : Int
deriving DecidableEq, Inhabited

namespace Binary64

/-- The quotient rounded to the nearest integer, a half to the even one. -/
def divideToEven (numerator denominator : Nat) : Nat :=
  let quotient := numerator / denominator
  let twice := 2 * (numerator % denominator)
  if twice < denominator then quotient
  else if denominator < twice then quotient + 1
  else quotient + quotient % 2

/-- The least exponent. -/
def minExponent : Int :=
  -1074

/-- The greatest exponent. -/
def maxExponent : Int :=
  971

/-- The least significand with 53 binary digits, `2 ^ 52`. -/
def minSignificand : Nat :=
  4503599627370496

/-- The significand and exponent nearest to a positive quotient. -/
def nearest (numerator denominator : Nat) : Nat × Int :=
  let guess : Int := (numerator.log2 : Int) - denominator.log2 - 52
  let scaled (exponent : Int) : Nat × Nat :=
    (numerator * Nat.pow 2 (-exponent).toNat, denominator * Nat.pow 2 exponent.toNat)
  let below := scaled guess
  let exponent := if below.1 / below.2 < minSignificand then guess - 1 else guess
  let exponent := max exponent minExponent
  let fraction := scaled exponent
  let significand := divideToEven fraction.1 fraction.2
  if significand = 2 * minSignificand then (minSignificand, exponent + 1)
  else (significand, exponent)

/-- The number nearest to a decimal, if it lies in the range. Decimals far from the range on
either side are not expanded. -/
def ofDecimal? (decimal : Decimal) : Option Binary64 :=
  let places : Int := (toString decimal.digits).length
  let zero : Binary64 := ⟨decimal.isNegative, 0, minExponent⟩
  if decimal.digits = 0 ∨ places + decimal.exponent < -330 then some zero
  else if 310 < places + decimal.exponent then none
  else
    let (significand, exponent) :=
      nearest (decimal.digits * Nat.pow 10 decimal.exponent.toNat)
        (Nat.pow 10 (-decimal.exponent).toNat)
    if maxExponent < exponent then none else some ⟨decimal.isNegative, significand, exponent⟩

/-- The integer that a number is, if it is one. -/
def integer? (number : Binary64) : Option Int :=
  let unit := Nat.pow 2 (-number.exponent).toNat
  if number.significand % unit = 0 then
    let size : Int := (number.significand / unit * Nat.pow 2 number.exponent.toNat : Nat)
    some (if number.isNegative then -size else size)
  else
    none

end Binary64

end TapeMachine
