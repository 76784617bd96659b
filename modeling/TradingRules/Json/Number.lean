import TradingRules.Json
import TradingRules.Json.Text
import TradingRules.Text.Digits

/-!
# Number literals

A literal is read as the leading digits that fit a 64-bit word and a power of ten, and then scaled
in binary64 arithmetic: one rounding for the digits, one for the power and one for the product or
quotient. A literal that is too large for a finite number is a fault.
-/

namespace TradingRules.Json

open Text

/-- The largest machine word. -/
def wordMax : Nat := 18446744073709551615

/-- The magnitude of the smallest signed word. -/
def signedMax : Nat := 9223372036854775808

/-- The digits read so far as `significand * 10 ^ exponent`; `full` once a digit did not fit. -/
structure Scaled where
  significand : Nat
  exponent : Int
  full : Bool

/-- A digit before the point: one that does not fit counts as a zero. -/
def Scaled.pushWhole (s : Scaled) (digit : Char) : Scaled :=
  let next := 10 * s.significand + digitsValue [digit]
  if !s.full && next ≤ wordMax then { s with significand := next }
  else { s with exponent := s.exponent + 1, full := true }

/-- A digit after the point: one that does not fit is dropped. -/
def Scaled.pushPlace (s : Scaled) (digit : Char) : Scaled :=
  let next := 10 * s.significand + digitsValue [digit]
  if !s.full && next ≤ wordMax then { s with significand := next, exponent := s.exponent - 1 }
  else { s with full := true }

def powerOfTen (k : Nat) : Float :=
  Float.ofScientific 1 false k

/-- A division by `10 ^ 308` comes first where the power of ten is out of range. -/
def Scaled.toFloat? (s : Scaled) : Option Float :=
  let x := Float.ofNat s.significand
  if s.significand = 0 then some 0.0
  else if 0 ≤ s.exponent then
    if s.exponent ≤ 308 then some (x * powerOfTen s.exponent.toNat) else none
  else
    let down := (-s.exponent).toNat
    if down ≤ 308 then some (x / powerOfTen down)
    else if down ≤ 616 then some (x / powerOfTen 308 / powerOfTen (down - 308))
    else some 0.0

def finite? (x : Float) : Option JsonNumber :=
  if h : x.isFinite = true then some (.real x h) else none

def Scaled.real? (negative : Bool) (s : Scaled) : Option JsonNumber := do
  let x ← s.toFloat?
  finite? (if negative then -x else x)

/-- A whole number that fits a word, signed below zero; all others, and minus zero, are reals. -/
def Scaled.whole? (negative : Bool) (s : Scaled) : Option JsonNumber :=
  if s.full then s.real? negative
  else if !negative then some (.integer s.significand)
  else if 1 ≤ s.significand && s.significand ≤ signedMax then some (.integer (-s.significand))
  else finite? (-(Float.ofNat s.significand))

/-- The digits that a text begins with; there is at least one. -/
def readDigits (cs : List Char) : Except Stop (Taken (List Char) cs.length) :=
  match cs with
  | [] => .error (.atEnd .cutValue)
  | c :: rest =>
    if c.isDigit then .ok ((Taken.span Char.isDigit rest).map (c :: ·))
    else .error (.before .invalidNumber (c :: rest))

/-- Digits without a needless zero in front. -/
def readWhole (cs : List Char) : Except Stop (Taken (List Char) cs.length) := do
  let digits ← readDigits cs
  match digits.value with
  | '0' :: _ :: _ => .error (.before .invalidNumber cs.tail)
  | _ => return digits

/-- A point with digits after it, or no places. -/
def readPlaces (cs : List Char) : Except Stop (Taken (List Char) (cs.length + 1)) :=
  match cs with
  | '.' :: rest => do return (← readDigits rest).weaken.weaken
  | cs => .ok (.here [] cs)

/-- Whether there is a minus sign; a plus sign is passed over. -/
def readSign (cs : List Char) : Taken Bool (cs.length + 1) :=
  match cs with
  | '-' :: rest => (Taken.here true rest).weaken
  | '+' :: rest => (Taken.here false rest).weaken
  | cs => .here false cs

/-- The largest exponent that is told from a larger one. -/
def exponentMax : Nat := 2147483647

/-- The text after the digits of an exponent; of one that is too large, after the first digit with
which it is. -/
def exponentEnd (n : Nat) : List Char → List Char
  | [] => []
  | c :: rest =>
    if c.isDigit && n ≤ exponentMax then exponentEnd (10 * n + digitsValue [c]) rest else c :: rest

/-- An exponent, if there is one, and the text that was left when its size was known. -/
structure Exponent where
  shift : Option Int
  known : List Char

def readExponent (cs : List Char) : Except Stop (Taken Exponent (cs.length + 1)) :=
  match cs with
  | [] => .ok (.here ⟨none, []⟩ [])
  | c :: rest =>
    if c = 'e' ∨ c = 'E' then do
      let sign := readSign rest
      let digits ← readDigits sign.rest
      let n : Int := digitsValue digits.value
      let exponent : Exponent := ⟨some (if sign.value then -n else n), exponentEnd 0 sign.rest⟩
      return (sign.followedBy (digits.map fun _ => exponent).weaken).weaken
    else .ok (.here ⟨none, c :: rest⟩ (c :: rest))

/-- Reads a number whose sign has been read: digits, then a point with places and an exponent, if
there are any. -/
def readNumber (negative : Bool) (cs : List Char) : Except Stop (Taken JsonNumber cs.length) := do
  let whole ← readWhole cs
  let places ← readPlaces whole.rest
  let exponent ← readExponent places.rest
  let scaled := whole.value.foldl Scaled.pushWhole ⟨0, 0, false⟩
  let number? := match places.value, exponent.value.shift with
    | [], none => scaled.whole? negative
    | digits, shift =>
      let scaled := digits.foldl Scaled.pushPlace { scaled with full := false }
      { scaled with exponent := scaled.exponent + shift.getD 0 : Scaled }.real? negative
  match number? with
  | some n => return (whole.followedBy (places.followedBy exponent)).map fun _ => n
  | none => .error (.behind .outOfRange exponent.value.known)

end TradingRules.Json
