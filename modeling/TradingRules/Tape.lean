import TradingRules.Method.Evaluate

/-!
# Tapes

A tape answers what a rule may ask of a price history: how many bars there are and the value of a
method at one of them. An asset answers by computing; a store answers the methods it holds from
their series and leaves the others to the asset.
-/

namespace TradingRules

structure Tape where
  length : Nat
  value : Method → Nat → Except RangeError Float

/-- Every read computed on its own. -/
def Asset.tape (a : Asset) : Tape where
  length := a.length
  value m i := m.valueAt a i

/-- Series of methods, each computed once. -/
abbrev Store := List (Method × Series Float)

namespace Store

def find? : Store → Method → Option (Series Float)
  | [], _ => none
  | (held, series) :: rest, m => if held = m then some series else find? rest m

/-- Adds the series of the methods that are not held yet. -/
def extend (a : Asset) : Store → List Method → Except RangeError Store
  | store, [] => .ok store
  | store, m :: rest =>
    match find? store m with
    | some _ => extend a store rest
    | none => do extend a ((m, ← m.evaluate a) :: store) rest

/-- The store of the given methods over an asset. -/
def build (a : Asset) (methods : List Method) : Except RangeError Store :=
  extend a [] methods

/-- Reads what is held from its series and the rest from the asset. -/
def tape (store : Store) (a : Asset) : Tape where
  length := a.length
  value m i := match find? store m with
    | some series => series.read i
    | none => m.valueAt a i

@[simp] theorem tape_nil (a : Asset) : tape [] a = a.tape := rfl

end Store

end TradingRules
