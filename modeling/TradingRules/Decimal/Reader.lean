import TradingRules.Text.Digits

/-!
# Reading numbers

Binary64 literals: a sign, digits with at most one point among or around them and an exponent, or
the words for infinity and for no number in any case. The result is the nearest binary64 number.
Signed 64-bit integers: a sign and digits.
-/

namespace TradingRules.Decimal

open Text

/-- The binary64 number nearest to `mantissa * 10 ^ exponent`. Magnitudes far outside the range are
settled by their number of digits. -/
def nearest (mantissa : Nat) (exponent : Int) : Float :=
  let size := (toString mantissa).length + exponent
  if mantissa = 0 then 0.0
  else if 400 < size then 1.0 / 0.0
  else if size < -400 then 0.0
  else Float.ofScientific mantissa (exponent < 0) exponent.natAbs

inductive NumberFault where
  | emptyFloat
  | invalidFloat
  | emptyInteger
  | invalidDigit
  | tooLarge
  | tooSmall
deriving DecidableEq, Repr

def NumberFault.message : NumberFault → String
  | .emptyFloat => "cannot parse float from empty string"
  | .invalidFloat => "invalid float literal"
  | .emptyInteger => "cannot parse integer from empty string"
  | .invalidDigit => "invalid digit found in string"
  | .tooLarge => "number too large to fit in target type"
  | .tooSmall => "number too small to fit in target type"

/-- An optional sign and the rest; `true` is for minus. -/
def takeSign : List Char → Bool × List Char
  | '-' :: rest => (true, rest)
  | '+' :: rest => (false, rest)
  | rest => (false, rest)

/-- The exponent after a mantissa: none, or the letter, a sign and at least one digit. -/
def exponent? : List Char → Option Int
  | [] => some 0
  | c :: rest =>
    if c = 'e' ∨ c = 'E' then
      let (negative, digits) := takeSign rest
      if digits.isEmpty || !digits.all Char.isDigit then none
      else some (if negative then -(digitsValue digits : Int) else digitsValue digits)
    else none

/-- A literal without its sign. -/
def unsigned? (cs : List Char) : Option Float :=
  let word := String.ofList (cs.map Char.toLower)
  if word = "inf" ∨ word = "infinity" then some (1.0 / 0.0)
  else if word = "nan" then some (0.0 / 0.0)
  else
    let whole := cs.takeWhile Char.isDigit
    let rest := cs.dropWhile Char.isDigit
    let (places, rest) := match rest with
      | '.' :: rest => (rest.takeWhile Char.isDigit, rest.dropWhile Char.isDigit)
      | rest => ([], rest)
    if whole.isEmpty && places.isEmpty then none
    else (exponent? rest).map fun e => nearest (digitsValue (whole ++ places)) (e - places.length)

def readFloat (s : String) : Except NumberFault Float :=
  if s.isEmpty then .error .emptyFloat
  else
    let (negative, rest) := takeSign s.toList
    match unsigned? rest with
    | some x => .ok (if negative then -x else x)
    | none => .error .invalidFloat

/-- Digits from the left; the first one that is none or leaves the range decides. -/
def boundedDigits (limit : Nat) (overflow : NumberFault) : Nat → List Char → Except NumberFault Nat
  | n, [] => .ok n
  | n, c :: rest =>
    if c.isDigit then
      let n := 10 * n + (c.toNat - '0'.toNat)
      if limit < n then .error overflow else boundedDigits limit overflow n rest
    else .error .invalidDigit

/-- The magnitude of the smallest integer; that of the largest is one less. -/
def integerLimit : Nat := 9223372036854775808

def readInteger (s : String) : Except NumberFault Int :=
  if s.isEmpty then .error .emptyInteger
  else
    let (negative, rest) := takeSign s.toList
    if rest.isEmpty then .error .invalidDigit
    else if negative then
      (boundedDigits integerLimit .tooSmall 0 rest).map fun n => -(n : Int)
    else (boundedDigits (integerLimit - 1) .tooLarge 0 rest).map fun n => (n : Int)

end TradingRules.Decimal
