/-!
# Binary64 numbers as integers

A finite number is a sign and a magnitude, an integer times a power of two. All decimal text is
computed from these integers, exactly.
-/

namespace TradingRules.Decimal

/-- The number `mantissa * 2 ^ exponent`. Below a power of two the next smaller number is only half
as far away as the next larger one. -/
structure Magnitude where
  mantissa : Nat
  exponent : Int
  halfGapBelow : Bool
deriving DecidableEq, Repr

/-- What a binary64 number stands for. -/
inductive Parts where
  | nan
  | infinite (negative : Bool)
  | finite (negative : Bool) (magnitude : Magnitude)
deriving DecidableEq, Repr

/-- How many fractions there are between two powers of two. -/
def fractionCount : Nat := 4503599627370496

/-- The parts of the number with the given interchange bits: a sign, eleven bits of exponent and the
fraction. -/
def Parts.ofBits (bits : Nat) : Parts :=
  let negative := bits / (2048 * fractionCount) % 2 == 1
  let field : Nat := bits / fractionCount % 2048
  let fraction : Nat := bits % fractionCount
  if field = 2047 then if fraction = 0 then .infinite negative else .nan
  else if field = 0 then .finite negative ⟨fraction, -1074, false⟩
  else
    .finite negative
      ⟨fractionCount + fraction, (field : Int) - 1075, decide (fraction = 0 ∧ 1 < field)⟩

def parts (x : Float) : Parts := .ofBits x.toBits.toNat

/-- Numerator and denominator of `mantissa * 2 ^ exponent`. -/
def Magnitude.ratio (m : Magnitude) : Nat × Nat :=
  (m.mantissa * Nat.pow 2 m.exponent.toNat, Nat.pow 2 (-m.exponent).toNat)

end TradingRules.Decimal
