import TradingRules.Command.Arguments
import TradingRules.Csv.Directory
import TradingRules.Report
import TradingRules.Settings
import TradingRules.Universe

/-!
# Running commands

A command reads its settings, then its document, then the quotes, and writes a report at the end.
Each stage fails without looking at what comes after it.
-/

namespace TradingRules

/-- What a command has written, and the failure that stopped it, if one did. -/
structure Outcome where
  written : String
  failure : Option Failure
deriving DecidableEq

namespace Outcome

def failed (f : Failure) : Outcome := ⟨"", some f⟩

def wrote (text : String) : Outcome := ⟨text, none⟩

/-- Writes some text before what comes after it. -/
def after (text : String) (o : Outcome) : Outcome := { o with written := text ++ o.written }

def exitCode (o : Outcome) : Nat :=
  match o.failure with
  | some f => f.exitCode
  | none => 0

end Outcome

namespace Command

variable {m : Type → Type} [Monad m]

/-- A stage of a command: it may fail. -/
abbrev Stage (m : Type → Type) := ExceptT Failure m

/-- Asks the disk; the question itself cannot fail. -/
def ask {α : Type} (x : m α) : Stage m α := ExceptT.lift x

def stage {α : Type} (x : Except Failure α) : Stage m α := ExceptT.mk (pure x)

def checked {α : Type} (x : Except SettingsFault α) : Stage m α := stage (x.mapError .settings)

def iniOf (path : String) : Except DiskFault String → Except SettingsFault Ini
  | .error fault => .error (.unreadable path ("couldn't read " ++ path ++ ": " ++ fault.message))
  | .ok text =>
    match Ini.parse text with
    | .ok ini => .ok ini
    | .error fault =>
      .error (.unreadable path ("couldn't read " ++ path ++ ": " ++ fault.message))

def readSettings (disk : Disk m) (path : String) : Stage m Ini := do
  let ini ← checked (iniOf path (← ask (disk.read path)))
  let _ ← checked (Settings.logLevel ini)
  return ini

def documentOf (path : String) : Except DiskFault String → Except Failure Json
  | .error fault => .error (.file fault.message)
  | .ok text => (Json.parse text).mapError (.notJson path)

/-- The document in a file, compiled. -/
def readDocument {α : Type} (disk : Disk m) (compile : Json → Except Document.Fault α)
    (path : String) : Stage m α := do
  let v ← stage (documentOf path (← ask (disk.read path)))
  stage ((compile v).mapError .document)

/-- The directory of the quotes, named in the settings file. -/
def dataPath (config : String) (ini : Ini) : Stage m String := do
  return Path.besides config (← checked (Settings.dataDirectory ini))

/-- A symbol named on the command line. -/
def symbolNamed (symbol : String) : String := Symbols.normal symbol.toList

/-- The symbols of the settings, or all that there are. -/
def symbolsOf (disk : Disk m) (directory : String) (ini : Ini) : Stage m (List String) := do
  match ← checked (Settings.symbols ini) with
  | some list => return list
  | none => stage ((← ask (Csv.listSymbols disk directory)).mapError .data)

/-- The symbols, each with what loading it gave. -/
def loads (disk : Disk m) (directory : String) (symbols : List String) :
    m (List (String × Except DataFault Asset)) :=
  symbols.mapM fun symbol => do return (symbol, ← Csv.loadAsset disk directory symbol)

def universeOf (disk : Disk m) (directory : String) (symbols : List String) :
    Stage m Universe := do
  stage ((Universe.ofLoads (← ask (loads disk directory symbols))).mapError .data)

/-- The reports of some backtests, up to the first that failed. -/
def backtestReports : List (Except EvaluationFault Ledger) → Outcome
  | [] => .wrote ""
  | .ok l :: rest => (backtestReports rest).after l.report
  | .error fault :: _ => .failed (.evaluation fault)

def finish (x : Stage m Outcome) : m Outcome := do
  match ← x.run with
  | .ok outcome => return outcome
  | .error f => return .failed f

def backtestStage (disk : Disk m) (config : String) (symbol : Option String) :
    Stage m Outcome := do
  let ini ← readSettings disk config
  checked (Settings.checkBacktest ini)
  let depth ← checked (Settings.maxDepth ini)
  let strategyPath ← checked (Settings.strategyPath ini)
  let strategy ← readDocument disk (Strategy.compile depth) (Path.besides config strategyPath)
  let directory ← dataPath config ini
  let symbols ← match symbol with
    | some s => pure [symbolNamed s]
    | none => symbolsOf disk directory ini
  let u ← universeOf disk directory symbols
  return (backtestReports (backtestAll u.assets strategy)).after
    ("Strategy: " ++ strategy.name ++ "\n")

def screenStage (disk : Disk m) (config filter : String) : Stage m Outcome := do
  let ini ← readSettings disk config
  checked (Settings.checkData ini)
  let depth ← checked (Settings.maxDepth ini)
  let f ← readDocument disk (Filter.compile depth) filter
  let directory ← dataPath config ini
  let symbols ← symbolsOf disk directory ini
  let u ← universeOf disk directory symbols
  return .wrote (TradingRules.screen u.assets f).report

def validateStage (disk : Disk m) (strategy : String) : Stage m Outcome := do
  let s ← readDocument disk (Strategy.compile defaultMaxDepth) strategy
  return .wrote s.summary

/-- The values of a method as lines of index, time and value; a bar without a value has none. -/
def valueTable (a : Asset) (values : List (Option Float)) : String :=
  let row (i : Nat) (value : Option Float) : String :=
    toString i ++ "," ++ ((a.quote? i).map fun q => q.time.text).getD "" ++ "," ++
      (value.map Decimal.shortestText).getD ""
  Text.lines ("index,timestamp,value" :: values.mapIdx row)

def tabulateStage (disk : Disk m) (config symbol method : String) : Stage m Outcome := do
  let ini ← readSettings disk config
  checked (Settings.checkData ini)
  let depth ← checked (Settings.maxDepth ini)
  let f ← readDocument disk (Method.compile depth) method
  let symbol := symbolNamed symbol
  let directory ← dataPath config ini
  let a ← stage ((← ask (Csv.loadAsset disk directory symbol)).mapError .data)
  let values ← stage ((f.perIndexValues a).mapError fun e => .evaluation ⟨symbol, e⟩)
  return .wrote (valueTable a values)

/-- Runs a command on a disk. -/
def run (disk : Disk m) : Command → m Outcome
  | .backtest config symbol => finish (backtestStage disk config symbol)
  | .screen config filter => finish (screenStage disk config filter)
  | .validate strategy => finish (validateStage disk strategy)
  | .tabulate config symbol method => finish (tabulateStage disk config symbol method)

end Command

end TradingRules
