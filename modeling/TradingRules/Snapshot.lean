import TradingRules.Strategy

/-!
# Snapshots

A bar of an asset as the present moment, with a store that its reads go through.
-/

namespace TradingRules

structure Snapshot where
  asset : Asset
  index : Nat
  store : Store
  index_lt : index < asset.length

/-- The bar at an index, with an empty store. -/
def Asset.snapshot (a : Asset) (index : Nat) : Except RangeError Snapshot :=
  if h : index < a.length then .ok ⟨a, index, [], h⟩ else .error ⟨index, a.length⟩

namespace Snapshot

def withStore (s : Snapshot) (store : Store) : Snapshot :=
  { s with store := store }

/-- The bar before, with the same store. -/
def previous (s : Snapshot) : Except RangeError Snapshot := do
  return (← s.asset.snapshot (s.index + 1)).withStore s.store

def quote (s : Snapshot) : Quote :=
  have : s.index < s.asset.quotes.size := s.index_lt
  s.asset.quotes[s.index]

def tape (s : Snapshot) : Tape :=
  s.store.tape s.asset

def value (s : Snapshot) (m : Method) : Except RangeError Float :=
  s.tape.value m s.index

def holds (s : Snapshot) (f : Filter) : Except RangeError Bool :=
  f.evaluate s.tape s.index

def fires (s : Snapshot) (rule : ExitRule) : Except RangeError Bool :=
  rule.fires s.tape s.index

def triggered (s : Snapshot) (rules : List ExitRule) : Except RangeError (Option ExitRule) :=
  TradingRules.triggered s.tape s.index rules

end Snapshot

end TradingRules
