import TradingRules.Indicator.Smoothing
import TradingRules.Series.Window

/-!
# True range

The true range of a bar is the largest of its own range and the distances of its high and its low
from the close before it. The oldest bar has no close before it, so there is one true range less
than there are bars. Wilder's smoothing of it is the average true range.
-/

namespace TradingRules.Indicator

open Arithmetic

variable {α : Type} [Arithmetic α]

def trueRange (high low previousClose : α) : α :=
  larger (larger (high - low) (abs (high - previousClose))) (abs (low - previousClose))

def trueRanges (high low close : Series α) : Series α :=
  let previousClose := close.skip 1
  Series.checked previousClose.length fun i => do
    return trueRange (← high.read i) (← low.read i) (← previousClose.read i)

def atrAt (high low close : Series α) (period index : Nat) : Except RangeError α :=
  smoothedAt (trueRanges high low close) period .wilder index

def atr (high low close : Series α) (period : Nat) : Except RangeError (Series α) :=
  smoothed (trueRanges high low close) period .wilder

end TradingRules.Indicator
