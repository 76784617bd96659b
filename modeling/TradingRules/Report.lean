import TradingRules.Backtest
import TradingRules.Decimal.Fixed
import TradingRules.Screen
import TradingRules.Text.Columns

/-!
# Reports

The text that commands write: a backtest, a screen and the summary of a strategy. Prices and
profits have four places, percentages one or two.
-/

namespace TradingRules

open Decimal Text

/-- One line of the table of trades. -/
def tradeRow (entry entryPrice exit exitPrice profit bars : String) : String :=
  padRight 20 entry ++ " " ++ padLeft 12 entryPrice ++ " " ++ padRight 20 exit ++ " " ++
    padLeft 12 exitPrice ++ " " ++ padLeft 12 profit ++ " " ++ padLeft 6 bars

def RoundTrip.row (t : RoundTrip) : String :=
  tradeRow t.entryTime.text (fixedText 4 t.entryPrice) t.exitTime.text (fixedText 4 t.exitPrice)
    (fixedText 4 t.profit) (toString t.holdingBars)

def Position.line (p : Position) : String :=
  "Open position:    entered " ++ p.entryTime.text ++ " at " ++ fixedText 4 p.entryPrice

/-- A profit factor without a bound as a number. -/
def Metrics.profitFactorValue (m : Metrics Float) : Float :=
  m.profitFactor.getD (1.0 / 0.0)

def Metrics.lines (m : Metrics Float) : List String :=
  ["Total Trades:     " ++ toString m.totalTrades,
   "Won/Lost/Even:    " ++ toString m.tradesWon ++ "/" ++ toString m.tradesLost ++ "/" ++
     toString m.tradesEven,
   "Win Rate:         " ++ fixedText 1 (m.winRate * 100.0) ++ "%",
   "Total Profit:     " ++ fixedText 4 m.totalProfit,
   "Compounded:       " ++ fixedText 2 (m.compoundedReturn * 100.0) ++ "%",
   "Avg Win/Loss:     " ++ fixedText 4 m.averageWin ++ " / " ++ fixedText 4 m.averageLoss,
   "Largest Win/Loss: " ++ fixedText 4 m.largestWin ++ " / " ++ fixedText 4 m.largestLoss,
   "Profit Factor:    " ++ fixedText 2 m.profitFactorValue,
   "Avg Holding:      " ++ fixedText 1 m.averageHolding ++ " bars",
   "Max Drawdown:     " ++ fixedText 4 m.maxDrawdown]

def Ledger.report (l : Ledger) : String :=
  let trades := l.journal.trades
  let heading := "=== " ++ l.symbol ++ " (" ++ toString l.bars ++ " bars, " ++
    toString trades.length ++ " trades, " ++ toString l.journal.skipped ++
    " skipped evaluations) ==="
  let table :=
    if trades.isEmpty then []
    else tradeRow "entry" "price" "exit" "price" "profit" "bars" :: trades.map RoundTrip.row
  lines (["", heading] ++ table ++ l.journal.position.toList.map Position.line ++ l.metrics.lines)

def ScreenResult.report (r : ScreenResult) : String :=
  let ineligible := r.ineligible.map fun (symbol, e) => "  " ++ symbol ++ ": " ++ e.message
  lines (r.passed ++ if ineligible.isEmpty then [] else ["", "Ineligible:"] ++ ineligible)

def Strategy.summary (s : Strategy) : String :=
  lines (["Strategy: " ++ s.name] ++
    (if s.description.isEmpty then [] else ["  " ++ s.description]) ++
    ["Entry:   " ++ s.entry.text, "Price:   " ++ s.price.text] ++
    s.exits.map (fun rule => "Exit:    " ++ rule.text) ++
    ["Methods:"] ++ s.methods.map (fun m => "  " ++ m.text) ++ ["Strategy is valid"])

end TradingRules
