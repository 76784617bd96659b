import TradingRules.Indicator.Window
import TradingRules.Named

/-!
# Stochastic oscillator

`%K` places the close between the lowest low and the highest high of its window, in percent, and is
50 where these two are equal. `%D` is a simple moving average of `%K`.
-/

namespace TradingRules

inductive StochasticOutput where
  | k
  | d
deriving DecidableEq, Repr

instance : Named StochasticOutput where
  all := [.k, .d]
  name
    | .k => "k"
    | .d => "d"

namespace Indicator

open Arithmetic

/-- The highest high and the lowest low of the window at `index`. -/
def windowExtremes (high low : Series Float) (index period : Nat) :
    Except RangeError (Float × Float) :=
  (List.range' index period).foldlM
    (fun (highest, lowest) i => do
      return (larger highest (← high.read i), smaller lowest (← low.read i)))
    (-1.0 / 0.0, 1.0 / 0.0)

def percentK (high low close : Series Float) (period : Nat) : Series Float :=
  Series.checked (windowedLength close.length period) fun i => do
    let (highest, lowest) ← windowExtremes high low i period
    let range := highest - lowest
    if range == 0.0 then return 50.0
    else return 100.0 * ((← close.read i) - lowest) / range

def stochasticAt (high low close : Series Float) (kPeriod dPeriod : Nat)
    (output : StochasticOutput) (index : Nat) : Except RangeError Float :=
  let k := percentK high low close kPeriod
  match output with
  | .k => k.read index
  | .d => smaAt k dPeriod index

def stochastic (high low close : Series Float) (kPeriod dPeriod : Nat)
    (output : StochasticOutput) : Except RangeError (Series Float) :=
  let k := percentK high low close kPeriod
  match output with
  | .k => Series.ofList <$> k.toList
  | .d => sma k dPeriod

end Indicator

end TradingRules
