import TradingRules.Arithmetic
import TradingRules.Series.Window

/-!
# Trades and their metrics

What happened in a run, as far as its figures go: where each trade began and ended, at what prices
and with what profit. A profit that is neither above nor below zero counts as even. Indices are
machine words, and so is the distance between them.
-/

namespace TradingRules

structure Trade (α : Type) where
  entryIndex : Nat
  exitIndex : Nat
  entryPrice : α
  exitPrice : α
  profit : α
deriving DecidableEq

structure Metrics (α : Type) where
  totalTrades : Nat
  tradesWon : Nat
  tradesLost : Nat
  tradesEven : Nat
  winRate : α
  totalProfit : α
  /-- The product of all price ratios, less one. -/
  compoundedReturn : α
  averageWin : α
  averageLoss : α
  largestWin : α
  largestLoss : α
  /-- What was won for each unit lost; nothing if there is no bound. -/
  profitFactor : Option α
  averageHolding : α
  /-- The deepest fall of the accumulated profit below an earlier height of it. -/
  maxDrawdown : α
deriving DecidableEq

open Arithmetic

variable {α : Type} [Arithmetic α]

namespace Trade

/-- How many bars newer the exit is. Indices count back, so the entry has the larger one. -/
def holdingBars (t : Trade α) : Nat :=
  if t.exitIndex ≤ t.entryIndex then t.entryIndex - t.exitIndex
  else wordCount + t.entryIndex - t.exitIndex

/-- The exit price as a multiple of a positive entry price. -/
def priceRatio (t : Trade α) : Option α :=
  if t.entryPrice > count 0 then some (t.exitPrice / t.entryPrice) else none

def isWon (t : Trade α) : Bool := t.profit > count 0

def isLost (t : Trade α) : Bool := !t.isWon && t.profit < count 0

end Trade

namespace Metrics

/-- `part / whole`, or zero where there is no whole. -/
def perCount (part : α) (whole : Nat) : α :=
  if 0 < whole then part / count whole else count 0

def wins (trades : List (Trade α)) : List α :=
  (trades.filter Trade.isWon).map Trade.profit

/-- The losses as positive numbers. -/
def losses (trades : List (Trade α)) : List α :=
  (trades.filter Trade.isLost).map fun t => abs t.profit

def sum (xs : List α) : α :=
  xs.foldl (· + ·) (count 0)

/-- The largest of some numbers, and at least zero. -/
def peak (xs : List α) : α :=
  xs.foldl (fun top x => if x > top then x else top) (count 0)

/-- The accumulated profit, its height so far and its deepest fall so far. -/
structure Curve (α : Type) where
  level : α
  height : α
  fall : α

def Curve.step (c : Curve α) (profit : α) : Curve α :=
  let level := c.level + profit
  let height := if level > c.height then level else c.height
  let drop := height - level
  ⟨level, height, if drop > c.fall then drop else c.fall⟩

def drawdown (profits : List α) : α :=
  (profits.foldl Curve.step ⟨count 0, count 0, count 0⟩).fall

/-- The figures of a list of trades. Sums are added up from the first trade on; the total profit
starts from a negative zero. -/
def ofTrades (trades : List (Trade α)) : Metrics α :=
  let won := wins trades
  let lost := losses trades
  let totalWon := sum won
  let totalLost := sum lost
  { totalTrades := trades.length
    tradesWon := won.length
    tradesLost := lost.length
    tradesEven := trades.countP fun t => !t.isWon && !t.isLost
    winRate := perCount (count won.length) trades.length
    totalProfit := (trades.map Trade.profit).foldl (· + ·) (-count 0)
    compoundedReturn := (trades.filterMap Trade.priceRatio).foldl (· * ·) (count 1) - count 1
    averageWin := perCount totalWon won.length
    averageLoss := perCount totalLost lost.length
    largestWin := peak won
    largestLoss := peak lost
    profitFactor :=
      if totalLost > count 0 then some (totalWon / totalLost)
      else if totalWon > count 0 then none
      else some (count 0)
    averageHolding :=
      perCount (count ((trades.map Trade.holdingBars).foldl (· + ·) 0 % wordCount)) trades.length
    maxDrawdown := drawdown (trades.map Trade.profit) }

end Metrics

end TradingRules
