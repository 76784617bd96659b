import TradingRules.Indicator.Smoothing
import TradingRules.Series.Window

/-!
# Trees of series

The ways to make a series out of values and out of other series, as data. Building a tree fails at
the first node whose operands do not fit, a base before the node on it.
-/

namespace TradingRules

inductive SeriesTree (α : Type) where
  | direct (newestFirst : List α)
  | chronological (oldestFirst : List α)
  | empty
  | replicate (x : α) (length : Nat)
  | reference (base : SeriesTree α)
  /-- The same series, whatever kind of node it is made by. -/
  | erased (base : SeriesTree α)
  | change (base : SeriesTree α)
  | window (base : SeriesTree α) (offset length : Nat)
  | skip (base : SeriesTree α) (n : Nat)
  | truncate (base : SeriesTree α) (n : Nat)
  | absDiff (lhs rhs : SeriesTree α)
  | sma (base : SeriesTree α) (period : Nat)
  | ema (base : SeriesTree α) (period : Nat)

/-- Why a tree has no series. -/
inductive BuildFault where
  | misfit (cause : Misfit)
  | range (cause : RangeError)
deriving DecidableEq, Repr

namespace SeriesTree

variable {α : Type} [Arithmetic α]

def build : SeriesTree α → Except BuildFault (Series α)
  | direct values => .ok (Series.ofList values)
  | chronological values => .ok (Series.ofList values.reverse)
  | empty => .ok (Series.ofList [])
  | replicate x length => .ok (Series.replicate length x)
  | reference base => base.build
  | erased base => base.build
  | change base => do return (← base.build).change
  | window base offset length => do
    ((← base.build).window offset length).mapError .misfit
  | skip base n => do return (← base.build).skip n
  | truncate base n => do return (← base.build).truncate n
  | absDiff lhs rhs => do
    let lhs ← lhs.build
    let rhs ← rhs.build
    (lhs.absDiff rhs).mapError .misfit
  | sma base period => do (Indicator.sma (← base.build) period).mapError .range
  | ema base period => do (Indicator.ema (← base.build) period).mapError .range

end SeriesTree

end TradingRules
