import TradingRules.Series.Window
import TradingRules.Indicator.TrueRange
import TradingRules.Indicator.Bollinger
import TradingRules.Indicator.Macd
import TradingRules.Indicator.Stochastic
import TradingRules.Timestamp.Reader
import TradingRules.Asset
import TradingRules.Decimal.Shortest
import TradingRules.Decimal.Fixed
import TradingRules.Decimal.Reader
import TradingRules.Method.Evaluate
import TradingRules.Series.Tree
import TradingRules.Json.Reader
import TradingRules.Strategy
import TradingRules.Snapshot
import TradingRules.Trade
import TradingRules.Document.Strategy
import TradingRules.Failure
import TradingRules.Report
import TradingRules.Universe
import TradingRules.Settings
import TradingRules.Csv.Quotes
import TradingRules.Files.Path
import TradingRules.Files.Tree
import TradingRules.Command.Run
import TradingRules.Main
import TradingRules.Proofs.Alternation
import TradingRules.Proofs.NoLookAhead
import TradingRules.Proofs.WellFormed
import TradingRules.Proofs.ExitSets
import TradingRules.Proofs.Shapes
import TradingRules.Proofs.Transparency
import TradingRules.Proofs.Faults
import TradingRules.Proofs.Guarded.Backtest
import TradingRules.Proofs.Trees
import TradingRules.Proofs.Depth
import TradingRules.Proofs.NormalForms
import TradingRules.Proofs.Stages
import TradingRules.Proofs.Accounting
import TradingRules.Proofs.NewestBar
import TradingRules.Proofs.Operands
import TradingRules.Proofs.Queries
import TradingRules.Proofs.StoreReads
import TradingRules.Proofs.Universes
import TradingRules.Proofs.Loosening
import TradingRules.Proofs.Crossings
import TradingRules.Proofs.Lookback
import TradingRules.Proofs.Recurrences
import TradingRules.Proofs.FilterLogic
import TradingRules.Proofs.Mirrors
import TradingRules.Proofs.Tolerance
import TradingRules.Proofs.WindowBounds
import TradingRules.Proofs.QuoteOrder
import TradingRules.Proofs.Rationals
import TradingRules.Proofs.Reconciliation
import TradingRules.Proofs.Averages
import TradingRules.Proofs.Rounding
import TradingRules.Proofs.Extents
import TradingRules.Proofs.Roundings
import TradingRules.Proofs.Operations
import TradingRules.Proofs.RoundedMeans
import TradingRules.Proofs.Oscillator
import TradingRules.Proofs.TradeOrder
import TradingRules.Proofs.DepthSetting
import TradingRules.Proofs.UpperCase
import TradingRules.Proofs.SymbolLists
import TradingRules.Proofs.QuoteFiles
import TradingRules.Proofs.Walks
import TradingRules.Proofs.SettingsText
import TradingRules.Proofs.CommandLines
import TradingRules.Proofs.NamedSymbols
import TradingRules.Proofs.Magnitudes
import TradingRules.Proofs.ShortestText
import TradingRules.Proofs.Phrases
import TradingRules.Proofs.ReadNumbers
import TradingRules.Proofs.FiniteTrees
import TradingRules.Proofs.PrintedTrees
