import TradingRules.Document.Strategy
import TradingRules.Failure
import TradingRules.Ini
import TradingRules.Symbols

/-!
# Settings

What a command wants to know: where the quotes are, which symbols to use, where the strategy is, how
deep a document may be and how much to log. A setting that is missing or unusable is reported with
its group and key.
-/

namespace TradingRules.Settings

open Text

variable (ini : Ini)

/-- A value that is there and not blank. -/
def required (group key : String) : Except SettingsFault String :=
  match ini.get? group key with
  | some s => if (trimmed s).isEmpty then .error (.missing group key) else .ok (trimmed s)
  | none => .error (.missing group key)

def dataDirectory : Except SettingsFault String := required ini "data" "dir"

def strategyPath : Except SettingsFault String := required ini "backtest" "strategy"

/-- The list of symbols, if one is set. -/
def symbols : Except SettingsFault (Option (List String)) :=
  match ini.get? "backtest" "symbols" with
  | none => .ok none
  | some s =>
    match Symbols.parse s with
    | .ok list => .ok (some list)
    | .error fault => .error (.invalid "backtest" "symbols" fault.message)

/-- The deepest depth that may be asked for. -/
def depthCeiling : Nat := 1024

/-- A value that is no integer counts as not set. -/
def maxDepth : Except SettingsFault Nat :=
  let depth := ini.getIntD "backtest" "max_depth" defaultMaxDepth
  if 1 ≤ depth ∧ depth ≤ depthCeiling then .ok depth.toNat
  else .error (.invalid "backtest" "max_depth"
    ("max_depth must be an integer between 1 and " ++ toString depthCeiling))

def logLevels : List String := ["error", "warn", "info", "debug", "trace"]

def defaultLogLevel : String := "info"

def logLevel : Except SettingsFault String :=
  let level := match ini.get? "logging" "level" with
    | some s => lowercase (trimmed s)
    | none => defaultLogLevel
  if level ∈ logLevels then .ok level
  else .error (.invalid "logging" "level" ("level must be one of " ++ ", ".intercalate logLevels))

/-- What every command that reads quotes needs. -/
def checkData : Except SettingsFault Unit := do
  let _ ← dataDirectory ini
  let _ ← symbols ini
  let _ ← logLevel ini

def checkBacktest : Except SettingsFault Unit := do
  checkData ini
  let _ ← strategyPath ini
  let _ ← maxDepth ini

end TradingRules.Settings
