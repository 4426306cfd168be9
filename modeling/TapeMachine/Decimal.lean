/-!
# Decimals

Numbers written with a point or an exponent, exactly as they were written. Zero has a sign too.
-/

namespace TapeMachine

/-- The number `digits * 10 ^ exponent`, with a minus sign in front if it is negative. -/
structure Decimal where
  isNegative : Bool
  digits : Nat
  exponent : Int
deriving DecidableEq, Inhabited

end TapeMachine
