import TradingRules.Document.Fault
import TradingRules.Json
import TradingRules.Named

/-!
# Parameters of a node

A node is an object; its parameters are the values of its keys. A parameter that may be left out
counts as left out only if its key is absent, whatever value the key has otherwise.
-/

namespace TradingRules.Document

abbrev Node := List (String × Json)

def node (v : Json) : Except Cause Node :=
  match v.object? with
  | some fields => .ok fields
  | none => .error .notAnObject

namespace Node

variable (n : Node)

def tag : Except Cause String :=
  match (Json.get? n "type").bind Json.string? with
  | some tag => .ok tag
  | none => .error .missingTag

def required (name : String) : Except Cause Json :=
  match Json.get? n name with
  | some v => .ok v
  | none => .error (.missingParameter name)

/-- Reads a value as what a parameter should be. -/
def expect {α : Type} (name : String) (expected : Expected) : Option α → Except Cause α
  | some x => .ok x
  | none => .error (.invalidParameter name expected)

def number (name : String) : Except Cause Float := do
  expect name .number (← n.required name).float?

def numberD (name : String) (default : Float) : Except Cause Float :=
  match Json.get? n name with
  | none => .ok default
  | some v => expect name .number v.float?

/-- A whole number from 1 on. -/
def period? (v : Json) : Option Nat :=
  v.nat?.filter (1 ≤ ·)

def period (name : String) : Except Cause Nat := do
  expect name .period (period? (← n.required name))

def periodD (name : String) (default : Nat) : Except Cause Nat :=
  match Json.get? n name with
  | none => .ok default
  | some v => expect name .period (period? v)

def string (name : String) : Except Cause String := do
  expect name .string (← n.required name).string?

def stringD (name : String) (default : String) : Except Cause String :=
  match Json.get? n name with
  | none => .ok default
  | some v => expect name .string v.string?

/-- One of the names of a vocabulary. -/
def choice (α : Type) [Named α] (name : String) : Except Cause α := do
  expect name (.oneOf (Named.choices α)) (Named.find? (← n.string name))

/-- The items of an array that has some. -/
def items (name : String) (expected : Expected) : Except Cause (List Json) := do
  expect name expected ((← n.required name).array?.filter (!·.isEmpty))

end Node

end TradingRules.Document
