/-!
# Faults in documents

Why a document does not compile and where: the steps that lead from its root to the node at fault.
-/

namespace TradingRules.Document

/-- What a node is read as. -/
inductive Category where
  | method
  | filter
  | exitRule
deriving DecidableEq, Repr

def Category.text : Category → String
  | .method => "method"
  | .filter => "filter"
  | .exitRule => "exit rule"

/-- What a parameter should have been. -/
inductive Expected where
  | number
  | period
  | string
  | oneOf (choices : List String)
  | filters
  | exitRules
  | belowSlow
  | notAboveUpper
deriving DecidableEq, Repr

def Expected.text : Expected → String
  | .number => "a number"
  | .period => "an integer >= 1"
  | .string => "a string"
  | .oneOf choices => "one of " ++ ", ".intercalate choices
  | .filters => "a non-empty array of filters"
  | .exitRules => "a non-empty array of exit rules"
  | .belowSlow => "less than 'slow'"
  | .notAboveUpper => "not greater than 'upper'"

inductive Cause where
  | unknownTag (category : Category) (tag : String)
  | missingTag
  | notAnObject
  | missingParameter (name : String)
  | invalidParameter (name : String) (expected : Expected)
  | tooDeep (limit : Nat)
deriving DecidableEq, Repr

def Cause.text : Cause → String
  | .unknownTag category tag => "unknown " ++ category.text ++ " type '" ++ tag ++ "'"
  | .missingTag => "missing 'type' tag"
  | .notAnObject => "expected an object"
  | .missingParameter name => "missing parameter '" ++ name ++ "'"
  | .invalidParameter name expected =>
    "parameter '" ++ name ++ "' must be " ++ expected.text
  | .tooDeep limit => "nesting exceeds the maximum depth of " ++ toString limit

/-- From a node to one inside it: the value of a key, or an item of the array there. -/
inductive Step where
  | key (name : String)
  | item (name : String) (index : Nat)
deriving DecidableEq, Repr

def Step.text : Step → String
  | .key name => "." ++ name
  | .item name index => "." ++ name ++ "[" ++ toString index ++ "]"

structure Fault where
  path : List Step
  cause : Cause
deriving DecidableEq, Repr

namespace Fault

def pathText (f : Fault) : String :=
  f.path.foldl (fun s step => s ++ step.text) "$"

def message (f : Fault) : String :=
  "config error at " ++ f.pathText ++ ": " ++ f.cause.text

end Fault

/-- A result whose fault, if there is one, lies at the node itself. -/
def here {α : Type} : Except Cause α → Except Fault α
  | .ok x => .ok x
  | .error cause => .error ⟨[], cause⟩

/-- A result of the node one step further in. -/
def under {α : Type} (step : Step) : Except Fault α → Except Fault α
  | .ok x => .ok x
  | .error f => .error ⟨step :: f.path, f.cause⟩

/-- Compiles the items of an array in order, each one under its own step. -/
def compileItems {α β : Type} (compile : α → Except Fault β) (name : String) :
    (index : Nat) → List α → Except Fault (List β)
  | _, [] => .ok []
  | index, v :: rest => do
    let x ← under (.item name index) (compile v)
    return x :: (← compileItems compile name (index + 1) rest)

end TradingRules.Document
