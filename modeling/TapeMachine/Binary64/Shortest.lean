import TapeMachine.Binary64

/-!
# The shortest text of a number

A number is written with the fewest digits that are read back as the same number, and of several
such texts with the one nearest to it. The multiples of a power of ten form a grid. The coarsest
grid with a point among the decimals that round to the number gives the digits.
-/

namespace TapeMachine.Binary64

/-- The decimals that round to a positive number, in quarters of its unit: the least, the number
itself and the greatest. The ends belong to them if the significand is even. Below a power of two
the numbers are twice as dense. -/
structure Neighbourhood where
  least : Nat
  centre : Nat
  greatest : Nat
  isClosed : Bool

/-- The decimals that round to a number. -/
def neighbourhood (number : Binary64) : Neighbourhood :=
  let centre := 4 * number.significand
  let isDense := number.significand = minSignificand ∧ minExponent < number.exponent
  ⟨if isDense then centre - 1 else centre - 2, centre, centre + 2, number.significand % 2 = 0⟩

/-- The multiple of `10 ^ place` that is nearest to a positive number among those that round to
it, if there is one; of two that are equally near, the even multiple. -/
def gridPoint? (number : Binary64) (place : Int) : Option Nat :=
  let near := number.neighbourhood
  let quarter := number.exponent - 2
  let step := Nat.pow 10 place.toNat * Nat.pow 2 (-quarter).toNat
  let scale := Nat.pow 10 (-place).toNat * Nat.pow 2 quarter.toNat
  let belongs (multiple : Nat) : Bool :=
    let point := multiple * step
    if near.isClosed then near.least * scale ≤ point && point ≤ near.greatest * scale
    else near.least * scale < point && point < near.greatest * scale
  let below := near.centre * scale / step
  let lack := near.centre * scale - below * step
  let excess := (below + 1) * step - near.centre * scale
  match belongs below, belongs (below + 1) with
  | true, true =>
      some (if lack < excess || (lack = excess && below % 2 = 0) then below else below + 1)
  | true, false => some below
  | false, true => some (below + 1)
  | false, false => none

/-- The digits of the coarsest grid from `place` down that has a point for a positive number, and
the place of that grid. -/
def digitsFrom (number : Binary64) : Nat → Int → Nat × Int
  | 0, place => (0, place)
  | grids + 1, place =>
      match number.gridPoint? place with
      | some multiple => (multiple, place)
      | none => number.digitsFrom grids (place - 1)

/-- A place above all digits of a number. -/
def topPlace (number : Binary64) : Int :=
  ((number.significand.log2 : Int) + 1 + number.exponent) * 30103 / 100000 + 2

/-- The shortest decimal that rounds to a number. Seventeen digits always suffice. -/
def shortest (number : Binary64) : Decimal :=
  if number.significand = 0 then ⟨number.isNegative, 0, 0⟩
  else
    let (digits, place) := number.digitsFrom 22 number.topPlace
    ⟨number.isNegative, digits, place⟩

/-- The digits of an exponent, at least two, behind its sign. -/
def exponentText (exponent : Int) : String :=
  let digits := toString exponent.natAbs
  (if exponent < 0 then "-" else "+") ++ (if digits.length < 2 then "0" else "") ++ digits

/-- The text of positive digits whose point stands `point` places behind their start. Where the
point would be far from the digits, an exponent is written instead. -/
def layOut (digits : String) (point : Int) : String :=
  let digits := digits.toList
  let zeros (count : Int) : List Char := List.replicate count.toNat '0'
  if point ≤ -4 ∨ 16 < point then
    let places := digits.drop 1
    let fraction := if places.isEmpty then [] else '.' :: places
    String.ofList (digits.take 1 ++ fraction) ++ "e" ++ exponentText (point - 1)
  else if point ≤ 0 then
    String.ofList ('0' :: '.' :: zeros (-point) ++ digits)
  else if digits.length ≤ point then
    String.ofList (digits ++ zeros (point - digits.length)) ++ ".0"
  else
    String.ofList (digits.take point.toNat ++ '.' :: digits.drop point.toNat)

/-- The text of a number. -/
def render (number : Binary64) : String :=
  let ⟨isNegative, digits, exponent⟩ := number.shortest
  let text := toString digits
  (if isNegative then "-" else "") ++
    (if digits = 0 then "0.0" else layOut text (text.length + exponent))

end TapeMachine.Binary64
