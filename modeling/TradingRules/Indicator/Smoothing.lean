import TradingRules.Indicator.Window

/-!
# Recursive smoothing

A smoothed value is made of the next older one and the source's value at its own index; the oldest
one is the mean of the oldest window. A walk therefore goes from the oldest index towards newer
ones, and where it stops has no effect on the values before.
-/

namespace TradingRules

inductive Smoothing where
  /-- The previous value weighs `period - 1` of `period` parts. -/
  | wilder
  /-- The new value weighs `2 / (period + 1)`. -/
  | exponential
deriving DecidableEq, Repr

namespace Smoothing

open Arithmetic

variable {α : Type} [Arithmetic α]

def step (kind : Smoothing) (period : Nat) (previous x : α) : α :=
  match kind with
  | .wilder => (previous * count (period - 1) + x) / count period
  | .exponential =>
    let weight := count 2 / (count period + count 1)
    x * weight + previous * (count 1 - weight)

end Smoothing

namespace Indicator

variable {α : Type} [Arithmetic α]

/-- The indices a walk has visited and the values there, oldest first. A walk visits at least the
index it starts from. -/
structure Walk (α : Type) where
  seed : Nat × α
  later : List (Nat × α)

namespace Walk

def visits (walk : Walk α) : List (Nat × α) :=
  walk.seed :: walk.later

/-- The value at the newest index visited. -/
def newest (walk : Walk α) : α :=
  (walk.later.getLastD walk.seed).2

end Walk

/-- The visits at the indices below `index` down to `stop`, after one that left `previous`. -/
def smoothDown (source : Series α) (period : Nat) (kind : Smoothing) (stop : Nat) :
    (index : Nat) → (previous : α) → Except RangeError (List (Nat × α))
  | 0, _ => .ok []
  | i + 1, previous =>
    if i < stop then .ok []
    else do
      let x ← source.read i
      let value := kind.step period previous x
      return (i, value) :: (← smoothDown source period kind stop i value)

/-- The walk from the oldest index with a whole window to `stop`. -/
def smoothWalk (source : Series α) (period : Nat) (kind : Smoothing) (stop : Nat) :
    Except RangeError (Walk α) := do
  let length := windowedLength source.length period
  RangeError.check stop length
  let start := length - 1
  let value ← windowMean source start period
  return ⟨(start, value), ← smoothDown source period kind stop start value⟩

def smoothedAt (source : Series α) (period : Nat) (kind : Smoothing) (index : Nat) :
    Except RangeError α := do
  return (← smoothWalk source period kind index).newest

def smoothed (source : Series α) (period : Nat) (kind : Smoothing) :
    Except RangeError (Series α) :=
  if windowedLength source.length period = 0 then .ok (Series.ofList [])
  else do
    let walk ← smoothWalk source period kind 0
    return Series.ofList (walk.visits.reverse.map (·.2))

def emaAt (source : Series α) (period index : Nat) : Except RangeError α :=
  smoothedAt source period .exponential index

def ema (source : Series α) (period : Nat) : Except RangeError (Series α) :=
  smoothed source period .exponential

end Indicator

end TradingRules
