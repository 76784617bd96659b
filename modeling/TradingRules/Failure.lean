import TradingRules.Document.Fault
import TradingRules.Json.Fault
import TradingRules.RangeError

/-!
# Failures of a command

What can go wrong between the arguments of a command and its report, with the message and the exit
status for each.
-/

namespace TradingRules

/-- Why a symbol has no quotes to work with. -/
inductive DataFault where
  | noQuotes (symbol : String)
  | unreadable (reason : String)
deriving DecidableEq, Repr

def DataFault.message : DataFault → String
  | .noQuotes symbol => "no quotes for " ++ symbol
  | .unreadable reason => "data error: " ++ reason

/-- Why settings cannot be used. -/
inductive SettingsFault where
  | unreadable (file reason : String)
  | missing (group key : String)
  | invalid (group key reason : String)
deriving DecidableEq, Repr

def SettingsFault.message : SettingsFault → String
  | .unreadable file reason => "config parse error in " ++ file ++ ": " ++ reason
  | .missing group key => "missing config key [" ++ group ++ "] " ++ key
  | .invalid group key reason =>
    "invalid config value [" ++ group ++ "] " ++ key ++ ": " ++ reason

/-- A method without a value where its series should have one. -/
structure EvaluationFault where
  symbol : String
  cause : RangeError
deriving DecidableEq, Repr

def EvaluationFault.message (f : EvaluationFault) : String :=
  "evaluation failed for " ++ f.symbol ++ ": " ++ f.cause.message

inductive Failure where
  | file (reason : String)
  | settings (fault : SettingsFault)
  | notJson (file : String) (fault : Json.SyntaxFault)
  | document (fault : Document.Fault)
  | data (fault : DataFault)
  | evaluation (fault : EvaluationFault)
deriving DecidableEq, Repr

namespace Failure

def message : Failure → String
  | .file reason => reason
  | .settings fault => fault.message
  | .notJson path fault => "strategy document " ++ path ++ " is not valid JSON: " ++ fault.message
  | .document fault => fault.message
  | .data fault => fault.message
  | .evaluation fault => fault.message

def exitCode : Failure → Nat
  | .file _ => 1
  | .settings _ => 2
  | .data _ => 3
  | .notJson _ _ => 4
  | .document _ => 4
  | .evaluation _ => 5

end Failure

end TradingRules
