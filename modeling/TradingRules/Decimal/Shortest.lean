import TradingRules.Decimal.Binary

/-!
# Shortest decimal text

The text of a number has the fewest digits that read back as it: of the decimals with that many
digits inside the interval that rounds to the number, the nearest, and the larger of two equally
near ones. It is positional, without an exponent and without a point after a whole number.
-/

namespace TradingRules.Decimal

/-- The number `digits * 10 ^ exponent`. -/
structure Grid where
  digits : Nat
  exponent : Int
deriving DecidableEq, Repr

namespace Magnitude

/-- Factors that bring quarters of the last binary place and units of `10 ^ exponent` to one
scale. -/
def scales (m : Magnitude) (exponent : Int) : Nat × Nat :=
  (Nat.pow 2 (m.exponent - 2).toNat * Nat.pow 10 (-exponent).toNat,
   Nat.pow 10 exponent.toNat * Nat.pow 2 (2 - m.exponent).toNat)

/-- Whether `digits * 10 ^ exponent` rounds to the number. The ends of the interval do if the
mantissa is even. -/
def readsBack (m : Magnitude) (g : Grid) : Bool :=
  let (quarter, unit) := m.scales g.exponent
  let low := (4 * m.mantissa - if m.halfGapBelow then 1 else 2) * quarter
  let high := (4 * m.mantissa + 2) * quarter
  let x := g.digits * unit
  if m.mantissa % 2 = 0 then low ≤ x && x ≤ high else low < x && x < high

/-- The decimals around the number among the multiples of `10 ^ exponent`. -/
def neighbours (m : Magnitude) (exponent : Int) : Grid × Grid :=
  let (quarter, unit) := m.scales exponent
  let below := 4 * m.mantissa * quarter / unit
  (⟨below, exponent⟩, ⟨below + 1, exponent⟩)

/-- Whether the lower neighbour is the nearer one. -/
def nearerBelow (m : Magnitude) (exponent : Int) : Bool :=
  let (quarter, unit) := m.scales exponent
  2 * (4 * m.mantissa * quarter % unit) < unit

/-- The neighbour at `10 ^ exponent` that reads back, the nearer one if both do. -/
def hit? (m : Magnitude) (exponent : Int) : Option Grid :=
  let (below, above) := m.neighbours exponent
  match m.readsBack below, m.readsBack above with
  | true, true => some (if m.nearerBelow exponent then below else above)
  | true, false => some below
  | false, true => some above
  | false, false => none

/-- The first hit on grids of ever more digits; past the last grid, the nearer neighbour there. -/
def shortestFrom (m : Magnitude) (exponent : Int) : (steps : Nat) → Grid
  | 0 =>
    let (below, above) := m.neighbours exponent
    if m.nearerBelow exponent then below else above
  | steps + 1 =>
    match m.hit? exponent with
    | some g => g
    | none => m.shortestFrom (exponent - 1) steps

/-- An exponent whose power of ten is not below the number. -/
def topExponent (m : Magnitude) : Int :=
  ((m.mantissa.log2 + 1 : Nat) + m.exponent) * 30103 / 100000 + 1

/-- The shortest decimal that reads back; seventeen digits always suffice. -/
def shortest (m : Magnitude) : Grid :=
  m.shortestFrom m.topExponent 20

end Magnitude

/-- The digits of a grid point in positional notation. -/
def Grid.text (g : Grid) : String :=
  let digits := toString g.digits
  if 0 ≤ g.exponent then digits.pushn '0' g.exponent.toNat
  else
    let places := (-g.exponent).toNat
    let whole := digits.length - places
    let digits := digits.toList
    if whole = 0 then "0." ++ "".pushn '0' (places - digits.length) ++ String.ofList digits
    else String.ofList (digits.take whole) ++ "." ++ String.ofList (digits.drop whole)

def shortestText (x : Float) : String :=
  match parts x with
  | .nan => "NaN"
  | .infinite negative => if negative then "-inf" else "inf"
  | .finite negative m =>
    (if negative then "-" else "") ++ if m.mantissa = 0 then "0" else m.shortest.text

end TradingRules.Decimal
