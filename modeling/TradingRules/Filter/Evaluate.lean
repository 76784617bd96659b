import TradingRules.Filter
import TradingRules.Tape

/-!
# Filters on a tape

A filter holds, does not hold or cannot be evaluated at a bar. Operands are read from left to
right. A conjunction ends at its first false member and a disjunction at its first true one, so
what comes after is not read. A crossing needs the bar before, and is never decided without it.
-/

namespace TradingRules.Filter

variable (t : Tape) (i : Nat)

/-- Whether a relation holds between two methods at a bar. -/
def related (relation : Float → Float → Bool) (lhs rhs : Method) : Except RangeError Bool := do
  let x ← t.value lhs i
  let y ← t.value rhs i
  return relation x y

/-- Whether `now` holds between two methods at a bar and `before` at the bar before. -/
def crossed (now before : Float → Float → Bool) (lhs rhs : Method) : Except RangeError Bool := do
  RangeError.check (i + 1) t.length
  let today ← related t i now lhs rhs
  let yesterday ← related t (i + 1) before lhs rhs
  return today && yesterday

mutual

def evaluate : Filter → Except RangeError Bool
  | always b => .ok b
  | compare op lhs rhs => related t i op.holds lhs rhs
  | crossAbove lhs rhs => crossed t i (· > ·) (· ≤ ·) lhs rhs
  | crossBelow lhs rhs => crossed t i (· < ·) (· ≥ ·) lhs rhs
  | between operand lower upper => do
    let x ← t.value operand i
    return x ≥ lower && x ≤ upper
  | all args => evaluateAll args
  | any args => evaluateAny args
  | not arg => do return !(← evaluate arg)

def evaluateAll : List Filter → Except RangeError Bool
  | [] => .ok true
  | f :: rest => do if ← evaluate f then evaluateAll rest else return false

def evaluateAny : List Filter → Except RangeError Bool
  | [] => .ok false
  | f :: rest => do if ← evaluate f then return true else evaluateAny rest

end

end TradingRules.Filter
