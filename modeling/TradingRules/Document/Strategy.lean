import TradingRules.Document.Filter
import TradingRules.Json.Reader
import TradingRules.Strategy

/-!
# Strategies in documents

The root of a strategy needs no tag. Its entry, its price and its exit rules lie one level below it;
its name and its description are looked at last.
-/

namespace TradingRules.Document

inductive ExitTag where
  | takeProfit
  | stopLoss
  | signal
deriving DecidableEq, Repr

instance : Named ExitTag where
  all := [.takeProfit, .stopLoss, .signal]
  name
    | .takeProfit => "take_profit"
    | .stopLoss => "stop_loss"
    | .signal => "signal"

def compileExit (limit : Nat) : (levels : Nat) → Json → Except Fault ExitRule
  | 0, _ => .error ⟨[], .tooDeep limit⟩
  | levels + 1, v => do
    let n ← here (node v)
    match ← here (tagOf ExitTag .exitRule n) with
    | .takeProfit =>
      let price ← innerD (compileMethod limit levels) n "price" .closing
      return .takeProfit (← here (n.number "target")) price
    | .stopLoss =>
      let price ← innerD (compileMethod limit levels) n "price" .closing
      return .stopLoss (← here (n.number "target")) price
    | .signal => return .signal (← inner (compileFilter limit levels) n "filter")

def compileStrategy (limit : Nat) : (levels : Nat) → Json → Except Fault Strategy
  | 0, _ => .error ⟨[], .tooDeep limit⟩
  | levels + 1, v => do
    let n ← here (node v)
    let entry ← inner (compileFilter limit levels) n "entry"
    let price ← innerD (compileMethod limit levels) n "price" .closing
    let items ← here (n.items "exits" .exitRules)
    let exits ← compileItems (compileExit limit levels) "exits" 0 items
    let name ← here (n.string "name")
    let description ← here (n.stringD "description" "")
    return ⟨name, description, entry, price, exits⟩

end Document

/-- The depth of the deepest node a document may have where nothing else is said; roots have
depth 0. -/
def defaultMaxDepth : Nat := 64

def Method.compile (maxDepth : Nat) (v : Json) : Except Document.Fault Method :=
  Document.compileMethod maxDepth (maxDepth + 1) v

def Filter.compile (maxDepth : Nat) (v : Json) : Except Document.Fault Filter :=
  Document.compileFilter maxDepth (maxDepth + 1) v

def Strategy.compile (maxDepth : Nat) (v : Json) : Except Document.Fault Strategy :=
  Document.compileStrategy maxDepth (maxDepth + 1) v

end TradingRules
