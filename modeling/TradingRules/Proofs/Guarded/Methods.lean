import TradingRules.Proofs.Guarded.Indicators
import TradingRules.Proofs.Store

/-!
# Guarded methods

An asset keeps its quotes oldest first and counts indices from the newest one, so finding a quote
is a subtraction. Methods are evaluated on what such reads give, operands of a difference are cut to
one length before they are paired, and a store keeps the series it has computed. On an asset that
fits a machine word the series, the lengths and the values are those of the method, whatever numbers
stand in it.
-/

namespace TradingRules

namespace Method

/-- A method has a value at no more indices than there are quotes. -/
theorem lengthFor_le (m : Method) (n : Nat) : m.lengthFor n ≤ n := by
  have windowed := Indicator.windowedLength_le
  induction m with
  | value x => exact Nat.le_refl n
  | field f => exact Nat.le_refl n
  | absDiff lhs rhs ihl ihr => exact Nat.le_trans (Nat.min_le_left _ _) ihl
  | atr period => exact Nat.le_trans (windowed (n - 1) period) (Nat.sub_le n 1)
  | sma period source ih => exact Nat.le_trans (windowed (source.lengthFor n) period) ih
  | ema period source ih => exact Nat.le_trans (windowed (source.lengthFor n) period) ih
  | bollinger period multiplier output => exact windowed n period
  | macd fast slow signal output =>
    have line := Nat.le_trans (Nat.min_le_left _ (Indicator.windowedLength n slow))
      (windowed n fast)
    cases output with
    | line => exact line
    | signal => exact Nat.le_trans (windowed _ signal) line
    | histogram => exact Nat.le_trans (windowed _ signal) line
  | stochastic kPeriod dPeriod output =>
    cases output with
    | k => exact windowed n kPeriod
    | d => exact Nat.le_trans (windowed _ dPeriod) (windowed n kPeriod)

end Method

namespace Guarded

/-- The quote at an index, found in the order in which an asset keeps its quotes. -/
def quote? (a : Asset) (index : Nat) : Guarded (Option Quote) :=
  if index < a.length then do
    let last ← difference a.length 1
    let place ← difference last index
    return a.history.reverse[place]?
  else .ok none

def field (a : Asset) (f : Field) : GuardedSeries Float where
  length := a.length
  read i := do
    match ← quote? a i with
    | some q => return f.value q
    | none => .error (.error ⟨i, a.length⟩)

def lengthFor (n : Nat) : Method → Guarded Nat
  | .value _ => .ok n
  | .field _ => .ok n
  | .absDiff lhs rhs => do return min (← lengthFor n lhs) (← lengthFor n rhs)
  | .atr period => windowedLength (n - 1) period
  | .sma period source => do windowedLength (← lengthFor n source) period
  | .ema period source => do windowedLength (← lengthFor n source) period
  | .bollinger period _ _ => windowedLength n period
  | .macd fast slow signal output => do
    let line := min (← windowedLength n fast) (← windowedLength n slow)
    match output with
    | .line => return line
    | .signal => windowedLength line signal
    | .histogram => windowedLength line signal
  | .stochastic kPeriod dPeriod output => do
    let k ← windowedLength n kPeriod
    match output with
    | .k => return k
    | .d => windowedLength k dPeriod

def evaluate (a : Asset) : Method → Guarded (GuardedSeries Float)
  | .value x => .ok (Series.replicate a.length x).guarded
  | .field f => .ok (field a f)
  | .absDiff lhs rhs => do
    let lhs ← evaluate a lhs
    let rhs ← evaluate a rhs
    let length := min lhs.length rhs.length
    GuardedSeries.absDiff (← lhs.truncate length) (← rhs.truncate length)
  | .atr period => atr (field a .high) (field a .low) (field a .close) period
  | .sma period source => do sma (← evaluate a source) period
  | .ema period source => do ema (← evaluate a source) period
  | .bollinger period multiplier output => bollinger (field a .close) period multiplier output
  | .macd fast slow signal output => macd (field a .close) fast slow signal output
  | .stochastic kPeriod dPeriod output =>
    stochastic (field a .high) (field a .low) (field a .close) kPeriod dPeriod output

def valueAt (a : Asset) (m : Method) (index : Nat) : Guarded Float := do
  of (RangeError.check index (← lengthFor a.length m))
  match m with
  | .value x => return x
  | .field f => (field a f).read index
  | .absDiff lhs rhs => return ((← valueAt a lhs index) - (← valueAt a rhs index)).abs
  | .atr period => atrAt (field a .high) (field a .low) (field a .close) period index
  | .sma period source =>
    let length ← lengthFor a.length source
    smaAt ⟨length, fun i => valueAt a source i⟩ period index
  | .ema period source => emaAt (← evaluate a source) period index
  | .bollinger period multiplier output =>
    bollingerAt (field a .close) period multiplier output index
  | .macd fast slow signal output => macdAt (field a .close) fast slow signal output index
  | .stochastic kPeriod dPeriod output =>
    stochasticAt (field a .high) (field a .low) (field a .close) kPeriod dPeriod output index

theorem quote?_eq (a : Asset) (index : Nat) : quote? a index = .ok (a.quote? index) := by
  have length : a.history.length = a.length := a.length_history
  rw [quote?, a.quote?_eq]
  split
  · rename_i inside
    have nonempty : 1 ≤ a.length := by omega
    have ordered : index ≤ a.length - 1 := by omega
    have place : a.length - 1 - index < a.history.length := by omega
    have mirrored : a.history.length - 1 - (a.length - 1 - index) = index := by omega
    rw [difference_eq nonempty, ok_bind, difference_eq ordered, ok_bind,
      List.getElem?_reverse place, mirrored]
    rfl
  · rename_i outside
    rw [List.getElem?_eq_none (by omega)]

theorem field_eq (a : Asset) (f : Field) : field a f = (a.field f).guarded := by
  refine congrArg (GuardedSeries.mk a.length) (funext fun i => ?_)
  simp only [quote?_eq, ok_bind, Asset.field]
  cases a.quote? i <;> rfl

theorem close_field_eq (a : Asset) :
    field a .close = (Series.ofList (a.history.map Quote.close)).guarded := by
  rw [field_eq, a.field_eq_ofList]
  rfl

/-- Over a number of quotes that is a machine word, no length of a method leaves the machine
words. -/
theorem lengthFor_eq_of_lt {n : Nat} (fits : n < wordCount) (m : Method) :
    lengthFor n m = .ok (m.lengthFor n) := by
  have windowed : ∀ {k} period, k ≤ n →
      windowedLength k period = .ok (Indicator.windowedLength k period) :=
    fun period below => windowedLength_eq (Nat.lt_of_le_of_lt below fits) period
  induction m with
  | value x => rfl
  | field f => rfl
  | absDiff lhs rhs ihl ihr =>
    rw [lengthFor, ihl, ok_bind, ihr]
    rfl
  | atr period => exact windowed period (Nat.sub_le n 1)
  | sma period source ih =>
    rw [lengthFor, ih, ok_bind]
    exact windowed period (source.lengthFor_le n)
  | ema period source ih =>
    rw [lengthFor, ih, ok_bind]
    exact windowed period (source.lengthFor_le n)
  | bollinger period multiplier output => exact windowed period (Nat.le_refl n)
  | macd fast slow signal output =>
    have line := (Method.macd fast slow signal .line).lengthFor_le n
    rw [lengthFor, windowed fast (Nat.le_refl _), windowed slow (Nat.le_refl _), ok_bind, ok_bind]
    cases output with
    | line => rfl
    | signal => exact windowed signal line
    | histogram => exact windowed signal line
  | stochastic kPeriod dPeriod output =>
    have k := (Method.stochastic kPeriod dPeriod .k).lengthFor_le n
    rw [lengthFor, windowed kPeriod (Nat.le_refl _), ok_bind]
    cases output with
    | k => rfl
    | d => exact windowed dPeriod k

section Values

variable {a : Asset} (fits : a.length < wordCount)
include fits

theorem lengthFor_eq (m : Method) : lengthFor a.length m = .ok (m.lengthFor a.length) :=
  lengthFor_eq_of_lt fits m

/-- What a method has over an asset fits a machine word as the asset does. -/
theorem values_fit (m : Method) : (Series.ofList (m.values a.history)).length < wordCount := by
  have shorter := m.lengthFor_le a.length
  rw [Series.length_ofList, m.length_values, a.length_history]
  omega

theorem evaluate_eq (m : Method) : evaluate a m = Series.guarded <$> of (m.evaluate a) := by
  have close : a.close.length < wordCount := fits
  have closes : (a.history.map Quote.close).length < wordCount := by
    rwa [List.length_map, a.length_history]
  induction m with
  | value x => rfl
  | field f => rw [evaluate, field_eq, Method.evaluate, of_ok, map_ok]
  | absDiff lhs rhs ihl ihr =>
    have left := values_fit fits lhs
    have right := values_fit fits rhs
    simp only [evaluate, Method.evaluate, ihl, ihr, lhs.evaluate_eq, rhs.evaluate_eq, of_ok, map_ok,
      ok_bind, pure_eq_ok, GuardedSeries.length_guarded, GuardedSeries.truncate_eq left,
      GuardedSeries.truncate_eq right]
    refine GuardedSeries.absDiff_eq ?_
    simp only [Series.truncate_ofList, Series.length_ofList, List.length_take]
    omega
  | atr period =>
    simp only [evaluate, field_eq]
    exact atr_eq a.high a.low close period
  | sma period source ih =>
    rw [evaluate, ih, Method.evaluate, source.evaluate_eq, ok_bind, of_ok, map_ok, ok_bind]
    exact sma_eq (values_fit fits source) period
  | ema period source ih =>
    rw [evaluate, ih, Method.evaluate, source.evaluate_eq, ok_bind, of_ok, map_ok, ok_bind]
    exact ema_eq (values_fit fits source) period
  | bollinger period multiplier output =>
    rw [evaluate, field_eq]
    exact bollinger_eq close period multiplier output
  | macd fast slow signal output =>
    rw [evaluate, close_field_eq, Method.evaluate, a.close_eq_ofList]
    exact macd_eq closes fast slow signal output
  | stochastic kPeriod dPeriod output =>
    simp only [evaluate, field_eq]
    exact stochastic_eq a.high a.low close kPeriod dPeriod output

theorem valueAt_eq (m : Method) (index : Nat) : valueAt a m index = of (m.valueAt a index) := by
  have close : a.close.length < wordCount := fits
  have closes : (a.history.map Quote.close).length < wordCount := by
    rwa [List.length_map, a.length_history]
  induction m generalizing index with
  | value x =>
    rw [valueAt, lengthFor_eq fits, Method.valueAt, of_bind, ok_bind]
    rfl
  | field f =>
    rw [valueAt, lengthFor_eq fits, Method.valueAt, field_eq, of_bind, ok_bind]
    rfl
  | absDiff lhs rhs ihl ihr =>
    rw [valueAt, lengthFor_eq fits, Method.valueAt]
    simp only [ihl, ihr, of_bind, ok_bind, pure_eq_ok, of_ok]
  | atr period =>
    simp only [valueAt, lengthFor_eq fits, Method.valueAt, field_eq, of_bind, ok_bind]
    rw [← atrAt_eq a.high a.low close period index]
    rfl
  | sma period source ih =>
    have view : (⟨source.lengthFor a.length, fun i => valueAt a source i⟩ : GuardedSeries Float) =
        (⟨source.lengthFor a.length, fun i => source.valueAt a i⟩ : Series Float).guarded :=
      congrArg (GuardedSeries.mk (source.lengthFor a.length)) (funext ih)
    have shorter := source.lengthFor_le a.length
    rw [valueAt, Method.valueAt]
    simp only [lengthFor_eq fits, of_bind, ok_bind, view]
    rw [smaAt_eq (Nat.lt_of_le_of_lt shorter fits)]
  | ema period source ih =>
    rw [valueAt, lengthFor_eq fits, Method.valueAt]
    simp only [evaluate_eq fits, source.evaluate_eq, of_bind, ok_bind, of_ok, map_ok,
      emaAt_eq (values_fit fits source)]
  | bollinger period multiplier output =>
    rw [valueAt, lengthFor_eq fits, Method.valueAt, field_eq, of_bind, ok_bind]
    simp only [← bollingerAt_eq close period multiplier output index]
    rfl
  | macd fast slow signal output =>
    rw [valueAt, lengthFor_eq fits, Method.valueAt, close_field_eq, a.close_eq_ofList, of_bind,
      ok_bind]
    simp only [macdAt_eq closes]
  | stochastic kPeriod dPeriod output =>
    simp only [valueAt, lengthFor_eq fits, Method.valueAt, field_eq, of_bind, ok_bind]
    rw [← stochasticAt_eq a.high a.low close kPeriod dPeriod output index]
    rfl

end Values

end Guarded

end TradingRules
