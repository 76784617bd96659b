/-!
# Decimal digits

ASCII digits only: no other decimal digit is read as one.
-/

namespace TradingRules.Text

/-- The value of a run of ASCII digits. -/
def digitsValue (digits : List Char) : Nat :=
  digits.foldl (fun n c => 10 * n + (c.toNat - '0'.toNat)) 0

end TradingRules.Text
