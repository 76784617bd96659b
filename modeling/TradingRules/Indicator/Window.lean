import TradingRules.Arithmetic
import TradingRules.Series

/-!
# Windows of a fixed period

An indicator with a window of `period` values is defined where the whole window is; its window at
an index starts there and reaches back in time. The simple moving average is the mean of it.
-/

namespace TradingRules.Indicator

open Arithmetic

/-- How many indices of `length` start a whole window of `period` values. -/
def windowedLength (length period : Nat) : Nat :=
  if period = 0 ∨ length < period then 0 else length - period + 1

variable {α : Type} [Arithmetic α]

/-- The mean of the window at `index`, added up from its newest value. -/
def windowMean (source : Series α) (index period : Nat) : Except RangeError α := do
  let sum ← (List.range' index period).foldlM (fun sum i => return sum + (← source.read i))
    (count 0)
  return sum / count period

def smaAt (source : Series α) (period index : Nat) : Except RangeError α := do
  RangeError.check index (windowedLength source.length period)
  windowMean source index period

def sma (source : Series α) (period : Nat) : Except RangeError (Series α) :=
  Series.collect (windowedLength source.length period) fun i => windowMean source i period

end TradingRules.Indicator
