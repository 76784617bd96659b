/-!
# Documents

The values a document can hold. A whole number that fits a 64-bit word is kept as one; every other
number is a finite binary64 number.
-/

namespace TradingRules

inductive JsonNumber where
  | integer (n : Int)
  | real (x : Float) (finite : x.isFinite = true)
deriving DecidableEq

def JsonNumber.toFloat : JsonNumber → Float
  | integer n => Float.ofInt n
  | real x _ => x

inductive Json where
  | null
  | bool (b : Bool)
  | number (n : JsonNumber)
  | string (s : String)
  | array (items : List Json)
  | object (fields : List (String × Json))

namespace Json

/-- The value at a key. -/
def get? : List (String × Json) → String → Option Json
  | [], _ => none
  | (k, w) :: rest, key => if k = key then some w else get? rest key

/-- Gives a key a value, in place of an earlier one. -/
def set : List (String × Json) → String → Json → List (String × Json)
  | [], key, v => [(key, v)]
  | (k, w) :: rest, key, v => if k = key then (k, v) :: rest else (k, w) :: set rest key v

def object? : Json → Option (List (String × Json))
  | object fields => some fields
  | _ => none

def array? : Json → Option (List Json)
  | array items => some items
  | _ => none

def string? : Json → Option String
  | string s => some s
  | _ => none

def float? : Json → Option Float
  | number n => some n.toFloat
  | _ => none

/-- The value of a whole number that is not negative. -/
def nat? : Json → Option Nat
  | number (.integer (.ofNat n)) => some n
  | _ => none

theorem get?_set (fields : List (String × Json)) (key other : String) (v : Json) :
    get? (set fields key v) other = if key = other then some v else get? fields other := by
  induction fields with
  | nil => simp [set, get?]
  | cons field rest ih => grind [set, get?]

end Json

end TradingRules
