import TradingRules.Filter.Evaluate

/-!
# Screens

Each asset is put into one of three classes by a filter at its newest bar: it passes, it does not,
or the filter has no answer for it.
-/

namespace TradingRules

/-- Whether a filter holds at the newest bar. An asset without a bar has no answer. -/
def Asset.latest (a : Asset) (f : Filter) : Except RangeError Bool := do
  RangeError.check 0 a.length
  f.evaluate a.tape 0

structure ScreenResult where
  passed : List String
  rejected : List String
  ineligible : List (String × RangeError)
deriving DecidableEq

namespace ScreenResult

def empty : ScreenResult := ⟨[], [], []⟩

/-- Puts a symbol in front of its class. -/
def add (symbol : String) (verdict : Except RangeError Bool) (r : ScreenResult) : ScreenResult :=
  match verdict with
  | .ok true => { r with passed := symbol :: r.passed }
  | .ok false => { r with rejected := symbol :: r.rejected }
  | .error e => { r with ineligible := (symbol, e) :: r.ineligible }

end ScreenResult

/-- The classes of some assets, each in the order of the assets. -/
def screen (assets : List Asset) (f : Filter) : ScreenResult :=
  assets.foldr (fun a r => r.add a.symbol (a.latest f)) .empty

end TradingRules
