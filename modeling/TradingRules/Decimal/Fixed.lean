import TradingRules.Decimal.Binary

/-!
# Decimal text with a fixed number of places

The exact binary value rounded to the nearest decimal with that many places, a half to the even
neighbour. The sign of the number is kept even where all digits are zero.
-/

namespace TradingRules.Decimal

/-- The integer nearest to a quotient, the even one of two. -/
def roundHalfEven (numerator denominator : Nat) : Nat :=
  let quotient := numerator / denominator
  let twice := 2 * (numerator % denominator)
  if twice < denominator then quotient
  else if denominator < twice then quotient + 1
  else quotient + quotient % 2

/-- The digits of `n` with a point before the last `places` of them. -/
def pointed (places n : Nat) : String :=
  let digits := toString n
  let digits := "".pushn '0' (places + 1 - digits.length) ++ digits
  let whole := digits.length - places
  if places = 0 then digits
  else String.ofList (digits.toList.take whole) ++ "." ++ String.ofList (digits.toList.drop whole)

def fixedText (places : Nat) (x : Float) : String :=
  match parts x with
  | .nan => "NaN"
  | .infinite negative => if negative then "-inf" else "inf"
  | .finite negative m =>
    let (numerator, denominator) := m.ratio
    (if negative then "-" else "") ++
      pointed places (roundHalfEven (numerator * Nat.pow 10 places) denominator)

end TradingRules.Decimal
