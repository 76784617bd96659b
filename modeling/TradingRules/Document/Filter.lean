import TradingRules.Document.Method
import TradingRules.Filter

/-!
# Filters in documents

Comparisons have a tag each. Conjunctions and disjunctions have an array with at least one member.
-/

namespace TradingRules.Document

inductive FilterTag where
  | compare (op : Comparison)
  | always (b : Bool)
  | crossAbove
  | crossBelow
  | between
  | all
  | any
  | not
deriving DecidableEq, Repr

instance : Named FilterTag where
  all := Named.all.map .compare ++
    [.always true, .always false, .crossAbove, .crossBelow, .between, .all, .any, .not]
  name
    | .compare op => name op
    | .always b => if b then "true" else "false"
    | .crossAbove => "cross_above"
    | .crossBelow => "cross_below"
    | .between => "between"
    | .all => "and"
    | .any => "or"
    | .not => "not"

/-- The bounds of a range, the lower one not above the upper one. -/
def bounds (n : Node) : Except Cause (Float × Float) := do
  let lower ← n.number "lower"
  let upper ← n.number "upper"
  if lower > upper then .error (.invalidParameter "lower" .notAboveUpper)
  else return (lower, upper)

/-- The two operands of a comparison or crossing. -/
def operands (compile : Json → Except Fault Method) (n : Node) :
    Except Fault (Method × Method) := do
  let lhs ← inner compile n "lhs"
  let rhs ← inner compile n "rhs"
  return (lhs, rhs)

/-- The members of a conjunction or disjunction. -/
def members {α : Type} (compile : Json → Except Fault α) (n : Node) : Except Fault (List α) := do
  let items ← here (n.items "args" .filters)
  compileItems compile "args" 0 items

def compileFilter (limit : Nat) : (levels : Nat) → Json → Except Fault Filter
  | 0, _ => .error ⟨[], .tooDeep limit⟩
  | levels + 1, v => do
    let n ← here (node v)
    match ← here (tagOf FilterTag .filter n) with
    | .compare op =>
      let (lhs, rhs) ← operands (compileMethod limit levels) n
      return .compare op lhs rhs
    | .always b => return .always b
    | .crossAbove =>
      let (lhs, rhs) ← operands (compileMethod limit levels) n
      return .crossAbove lhs rhs
    | .crossBelow =>
      let (lhs, rhs) ← operands (compileMethod limit levels) n
      return .crossBelow lhs rhs
    | .between =>
      let operand ← inner (compileMethod limit levels) n "operand"
      let (lower, upper) ← here (bounds n)
      return .between operand lower upper
    | .all => return .all (← members (compileFilter limit levels) n)
    | .any => return .any (← members (compileFilter limit levels) n)
    | .not => return .not (← inner (compileFilter limit levels) n "arg")

end TradingRules.Document
