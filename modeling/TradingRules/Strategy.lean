import TradingRules.Filter.Evaluate

/-!
# Strategies

A strategy enters when its filter holds and leaves when one of its exit rules fires. The rules act
together: one that cannot be evaluated does not hide the others, and its error counts only if none
fires.
-/

namespace TradingRules

inductive ExitRule where
  /-- Fires once the price is at or above the target. -/
  | takeProfit (target : Float) (price : Method)
  /-- Fires once the price is at or below the target. -/
  | stopLoss (target : Float) (price : Method)
  /-- Fires while the filter holds. -/
  | signal (filter : Filter)
deriving DecidableEq

namespace ExitRule

def tag : ExitRule → String
  | takeProfit _ _ => "take_profit"
  | stopLoss _ _ => "stop_loss"
  | signal _ => "signal"

def text : ExitRule → String
  | takeProfit target price =>
    "take_profit(" ++ price.text ++ " >= " ++ Decimal.shortestText target ++ ")"
  | stopLoss target price =>
    "stop_loss(" ++ price.text ++ " <= " ++ Decimal.shortestText target ++ ")"
  | signal filter => "signal(" ++ filter.text ++ ")"

def methods : ExitRule → List Method
  | takeProfit _ price => [price]
  | stopLoss _ price => [price]
  | signal filter => filter.methods

def fires (t : Tape) (i : Nat) : ExitRule → Except RangeError Bool
  | takeProfit target price => do return (← t.value price i) ≥ target
  | stopLoss target price => do return (← t.value price i) ≤ target
  | signal filter => filter.evaluate t i

end ExitRule

structure Strategy where
  name : String
  description : String
  entry : Filter
  /-- What a position is opened and closed at. -/
  price : Method
  exits : List ExitRule
deriving DecidableEq

/-- The members of a list at their first places. -/
def distinct {α : Type} [DecidableEq α] : List α → List α
  | [] => []
  | x :: rest => x :: (distinct rest).filter (· ≠ x)

/-- The first rule that fires; without one, the first error, if there is one. -/
def triggered (t : Tape) (i : Nat) : List ExitRule → Except RangeError (Option ExitRule)
  | [] => .ok none
  | rule :: rest =>
    match rule.fires t i with
    | .ok true => .ok (some rule)
    | .ok false => triggered t i rest
    | .error e =>
      match triggered t i rest with
      | .ok (some later) => .ok (some later)
      | _ => .error e

namespace Strategy

/-- The methods that a run of the strategy reads, at their first places: those of the entry, the
price and those of the exits. -/
def methods (s : Strategy) : List Method :=
  distinct (s.entry.methods ++ s.price :: s.exits.flatMap ExitRule.methods)

end Strategy

end TradingRules
