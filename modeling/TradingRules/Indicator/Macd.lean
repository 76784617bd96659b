import TradingRules.Indicator.Smoothing
import TradingRules.Named

/-!
# Convergence and divergence of moving averages

The line is the fast exponential average less the slow one, the signal is the exponential average
of the line and the histogram is the line less the signal. All three share the newest index.
-/

namespace TradingRules

inductive MacdOutput where
  | line
  | signal
  | histogram
deriving DecidableEq, Repr

instance : Named MacdOutput where
  all := [.line, .signal, .histogram]
  name
    | .line => "line"
    | .signal => "signal"
    | .histogram => "histogram"

namespace Indicator

variable {α : Type} [Arithmetic α]

def macdLine (source : Series α) (fast slow : Nat) : Except RangeError (Series α) := do
  let fastAverage ← ema source fast
  let slowAverage ← ema source slow
  return Series.checked (min fastAverage.length slowAverage.length) fun i => do
    return (← fastAverage.read i) - (← slowAverage.read i)

def macdAt (source : Series α) (fast slow signal : Nat) (output : MacdOutput) (index : Nat) :
    Except RangeError α := do
  let line ← macdLine source fast slow
  match output with
  | .line => line.read index
  | .signal => emaAt line signal index
  | .histogram =>
    let signalValue ← emaAt line signal index
    return (← line.read index) - signalValue

def macd (source : Series α) (fast slow signal : Nat) (output : MacdOutput) :
    Except RangeError (Series α) := do
  let line ← macdLine source fast slow
  match output with
  | .line => return Series.ofList (← line.toList)
  | .signal => ema line signal
  | .histogram =>
    let signalLine ← ema line signal
    Series.collect signalLine.length fun i => do
      return (← line.read i) - (← signalLine.read i)

end Indicator

end TradingRules
