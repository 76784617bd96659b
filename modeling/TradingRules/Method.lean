import TradingRules.Decimal.Shortest
import TradingRules.Indicator.Bollinger
import TradingRules.Indicator.Macd
import TradingRules.Indicator.Stochastic
import TradingRules.Quote

/-!
# Methods

A method is a numeric expression over the quotes of an asset. Two methods are equal when they are
the same expression; numbers in them are the same when their bits are.
-/

namespace TradingRules

inductive Method where
  | value (x : Float)
  | field (f : Field)
  | absDiff (lhs rhs : Method)
  | atr (period : Nat)
  | sma (period : Nat) (source : Method)
  | ema (period : Nat) (source : Method)
  | bollinger (period : Nat) (multiplier : Float) (output : Band)
  | macd (fast slow signal : Nat) (output : MacdOutput)
  | stochastic (kPeriod dPeriod : Nat) (output : StochasticOutput)
deriving DecidableEq

namespace Method

/-- The price that stands where a document names none. -/
def closing : Method := .field .close

def text : Method → String
  | value x => Decimal.shortestText x
  | field f => name f
  | absDiff lhs rhs => "abs_diff(" ++ lhs.text ++ ", " ++ rhs.text ++ ")"
  | atr period => "ATR(" ++ toString period ++ ")"
  | sma period source => "SMA(" ++ toString period ++ ", " ++ source.text ++ ")"
  | ema period source => "EMA(" ++ toString period ++ ", " ++ source.text ++ ")"
  | bollinger period multiplier output =>
    "BOLLINGER_" ++ name output ++ "(" ++ toString period ++ "," ++
      Decimal.shortestText multiplier ++ ")"
  | macd fast slow signal output =>
    "MACD_" ++ name output ++ "(" ++ toString fast ++ "," ++ toString slow ++ "," ++
      toString signal ++ ")"
  | stochastic kPeriod dPeriod output =>
    "STOCHASTIC_" ++ name output ++ "(" ++ toString kPeriod ++ "," ++ toString dPeriod ++ ")"

end Method

end TradingRules
