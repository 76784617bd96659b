import TradingRules.Failure
import TradingRules.Strategy
import TradingRules.Trade

/-!
# Backtests

A strategy is replayed over the bars of an asset from the oldest to the newest, one position at a
time. Without a position a bar may open one, with a position a bar may close it, and no bar does
both. A bar whose decision cannot be made is skipped and changes nothing.
-/

namespace TradingRules

/-- A place in a price history: the index that counts back from the newest bar, and the time. -/
structure Bar where
  index : Nat
  time : Timestamp
deriving DecidableEq

/-- The bars of an asset, oldest first. -/
def Asset.bars (a : Asset) : List Bar :=
  (a.quotes.toList.mapIdx fun i q => ⟨i, q.time⟩).reverse

structure Position where
  entryIndex : Nat
  entryTime : Timestamp
  entryPrice : Float
deriving DecidableEq

/-- A trade and its times. -/
structure RoundTrip extends Trade Float where
  entryTime : Timestamp
  exitTime : Timestamp
deriving DecidableEq

def Position.close (p : Position) (b : Bar) (price : Float) : RoundTrip where
  entryIndex := p.entryIndex
  exitIndex := b.index
  entryPrice := p.entryPrice
  exitPrice := price
  profit := price - p.entryPrice
  entryTime := p.entryTime
  exitTime := b.time

/-- What a replay leaves behind: its trades in order, the position still open and how many bars
were skipped. -/
structure Journal where
  trades : List RoundTrip
  position : Option Position
  skipped : Nat
deriving DecidableEq

namespace Strategy

variable (s : Strategy) (t : Tape)

/-- The position to open at a bar, if the entry holds. -/
def enter (b : Bar) : Except RangeError (Option Position) := do
  if ← s.entry.evaluate t b.index then
    return some ⟨b.index, b.time, ← t.value s.price b.index⟩
  else return none

/-- The price to close at a bar, if an exit rule fires. -/
def leave (b : Bar) : Except RangeError (Option Float) := do
  match ← triggered t b.index s.exits with
  | some _ => return some (← t.value s.price b.index)
  | none => return none

/-- Replays bars, oldest first, starting with a position or without one. -/
def replay : List Bar → Option Position → Journal
  | [], position => ⟨[], position, 0⟩
  | b :: newer, none =>
    match s.enter t b with
    | .ok opened => replay newer opened
    | .error _ =>
      let journal := replay newer none
      { journal with skipped := journal.skipped + 1 }
  | b :: newer, some position =>
    match s.leave t b with
    | .ok none => replay newer (some position)
    | .ok (some price) =>
      let journal := replay newer none
      { journal with trades := position.close b price :: journal.trades }
    | .error _ =>
      let journal := replay newer (some position)
      { journal with skipped := journal.skipped + 1 }

end Strategy

/-- The result of a backtest. -/
structure Ledger where
  symbol : String
  bars : Nat
  journal : Journal
  metrics : Metrics Float
deriving DecidableEq

def Ledger.ofJournal (a : Asset) (journal : Journal) : Ledger where
  symbol := a.symbol
  bars := a.length
  journal := journal
  metrics := .ofTrades (journal.trades.map RoundTrip.toTrade)

/-- Replays a strategy over an asset, with the series of all its methods computed beforehand. -/
def Asset.backtest (a : Asset) (s : Strategy) : Except EvaluationFault Ledger :=
  match Store.build a s.methods with
  | .ok store => .ok (.ofJournal a (s.replay (store.tape a) a.bars none))
  | .error cause => .error ⟨a.symbol, cause⟩

/-- One result for each asset, in order. -/
def backtestAll (assets : List Asset) (s : Strategy) : List (Except EvaluationFault Ledger) :=
  assets.map fun a => a.backtest s

end TradingRules
