import TradingRules.Indicator.Window
import TradingRules.Named

/-!
# Bollinger bands

The middle band is the mean of the window. The outer bands lie a multiple of the standard
deviation of the window away from it; the deviation divides by the number of values.
-/

namespace TradingRules

inductive Band where
  | upper
  | middle
  | lower
deriving DecidableEq, Repr

instance : Named Band where
  all := [.upper, .middle, .lower]
  name
    | .upper => "upper"
    | .middle => "middle"
    | .lower => "lower"

namespace Indicator

/-- The standard deviation of the window at `index` around its mean. -/
def windowDeviation (source : Series Float) (index period : Nat) (mean : Float) :
    Except RangeError Float := do
  let squares ← (List.range' index period).foldlM
    (fun sum i => do
      let x ← source.read i
      return sum + (x - mean) * (x - mean))
    (0 : Float)
  return (squares / Float.ofNat period).sqrt

def band (source : Series Float) (period : Nat) (multiplier : Float) (output : Band)
    (index : Nat) : Except RangeError Float := do
  let middle ← windowMean source index period
  match output with
  | .middle => return middle
  | .upper => return middle + multiplier * (← windowDeviation source index period middle)
  | .lower => return middle - multiplier * (← windowDeviation source index period middle)

def bollingerAt (source : Series Float) (period : Nat) (multiplier : Float) (output : Band)
    (index : Nat) : Except RangeError Float := do
  RangeError.check index (windowedLength source.length period)
  band source period multiplier output index

def bollinger (source : Series Float) (period : Nat) (multiplier : Float) (output : Band) :
    Except RangeError (Series Float) :=
  Series.collect (windowedLength source.length period) (band source period multiplier output)

end Indicator

end TradingRules
