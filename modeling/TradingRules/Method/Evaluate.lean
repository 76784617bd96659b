import TradingRules.Asset
import TradingRules.Indicator.TrueRange
import TradingRules.Method

/-!
# Values of methods

A method has a series over an asset and a value at each index. The two are computed separately: a
value at an index does not need the whole series where the indicator allows it. How many indices
have a value depends on the number of quotes alone.
-/

namespace TradingRules.Method

open Indicator

/-- The number of indices with a value, over `n` quotes. -/
def lengthFor (n : Nat) : Method → Nat
  | value _ => n
  | field _ => n
  | absDiff lhs rhs => min (lhs.lengthFor n) (rhs.lengthFor n)
  | atr period => windowedLength (n - 1) period
  | sma period source => windowedLength (source.lengthFor n) period
  | ema period source => windowedLength (source.lengthFor n) period
  | bollinger period _ _ => windowedLength n period
  | macd fast slow signal output =>
    let line := min (windowedLength n fast) (windowedLength n slow)
    match output with
    | .line => line
    | .signal => windowedLength line signal
    | .histogram => windowedLength line signal
  | stochastic kPeriod dPeriod output =>
    let k := windowedLength n kPeriod
    match output with
    | .k => k
    | .d => windowedLength k dPeriod

/-- The whole series. Operands of a difference are cut to the shorter one. -/
def evaluate (a : Asset) : Method → Except RangeError (Series Float)
  | value x => .ok (Series.replicate a.length x)
  | field f => .ok (a.field f)
  | absDiff lhs rhs => do
    let lhs ← lhs.evaluate a
    let rhs ← rhs.evaluate a
    let length := min lhs.length rhs.length
    return (lhs.truncate length).distance (rhs.truncate length)
  | atr period => Indicator.atr a.high a.low a.close period
  | sma period source => do Indicator.sma (← source.evaluate a) period
  | ema period source => do Indicator.ema (← source.evaluate a) period
  | bollinger period multiplier output => Indicator.bollinger a.close period multiplier output
  | macd fast slow signal output => Indicator.macd a.close fast slow signal output
  | stochastic kPeriod dPeriod output =>
    Indicator.stochastic a.high a.low a.close kPeriod dPeriod output

/-- The value at one index. -/
def valueAt (a : Asset) (m : Method) (index : Nat) : Except RangeError Float := do
  RangeError.check index (m.lengthFor a.length)
  match m with
  | value x => return x
  | field f => (a.field f).read index
  | absDiff lhs rhs => return ((← lhs.valueAt a index) - (← rhs.valueAt a index)).abs
  | atr period => atrAt a.high a.low a.close period index
  | sma period source => smaAt ⟨source.lengthFor a.length, fun i => source.valueAt a i⟩ period index
  | ema period source => emaAt (← source.evaluate a) period index
  | bollinger period multiplier output => bollingerAt a.close period multiplier output index
  | macd fast slow signal output => macdAt a.close fast slow signal output index
  | stochastic kPeriod dPeriod output =>
    stochasticAt a.high a.low a.close kPeriod dPeriod output index

/-- One entry per quote, newest first, empty where the method has no value. -/
def perIndexValues (a : Asset) (m : Method) : Except RangeError (List (Option Float)) := do
  let series ← m.evaluate a
  (List.range a.length).mapM fun i =>
    if i < series.length then some <$> series.read i else return none

end TradingRules.Method
