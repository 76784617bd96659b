import TradingRules.Method.Evaluate
import TradingRules.Proofs.Indicators

/-!
# Values of a method

A method turns the quotes of an asset, newest first, into a list of values. Its series, its value
at an index and the number of indices it is defined on are three separate definitions; each of them
is read off this one list.
-/

namespace TradingRules

namespace Asset

/-- The quotes of an asset as a list, newest first. -/
def history (a : Asset) : List Quote := a.quotes.toList

theorem length_history (a : Asset) : a.history.length = a.length := rfl

theorem quote?_eq (a : Asset) (i : Nat) : a.quote? i = a.history[i]? := by
  rw [quote?, history, Array.getElem?_toList]

theorem field_eq_ofList (a : Asset) (f : Field) :
    a.field f = Series.ofList (a.history.map f.value) := by
  have length : (a.field f).length = (a.history.map f.value).length := by
    rw [List.length_map, length_history]
    rfl
  refine Series.eq_of_reads (by rw [length, Series.length_ofList]) fun i => ?_
  by_cases h : i < a.history.length
  · rw [Series.read_map_of_lt h]
    simp only [field, quote?_eq, List.getElem?_eq_getElem h]
  · rw [Series.read_ofList_of_le (by simpa using h), List.length_map]
    simp only [field, quote?_eq, List.getElem?_eq_none (Nat.le_of_not_lt h), length_history]

theorem high_eq_ofList (a : Asset) : a.high = Series.ofList (a.history.map Quote.high) :=
  a.field_eq_ofList .high

theorem low_eq_ofList (a : Asset) : a.low = Series.ofList (a.history.map Quote.low) :=
  a.field_eq_ofList .low

theorem close_eq_ofList (a : Asset) : a.close = Series.ofList (a.history.map Quote.close) :=
  a.field_eq_ofList .close

end Asset

namespace Method

open Indicator

/-- The values of a method over quotes, newest first. Operands of a difference line up on the
newest quote. -/
def values : Method → List Quote → List Float
  | value x, quotes => List.replicate quotes.length x
  | field f, quotes => quotes.map f.value
  | absDiff lhs rhs, quotes =>
    List.zipWith (fun x y => (x - y).abs) (lhs.values quotes) (rhs.values quotes)
  | atr period, quotes => Smoothing.wilder.values period (trueRangesOf quotes)
  | sma period source, quotes => windows period (mean period) (source.values quotes)
  | ema period source, quotes => Smoothing.exponential.values period (source.values quotes)
  | bollinger period multiplier output, quotes =>
    windows period (bandOf period multiplier output) (quotes.map Quote.close)
  | macd fast slow signal output, quotes => macdOf fast slow signal output (quotes.map Quote.close)
  | stochastic kPeriod dPeriod output, quotes => stochasticOf kPeriod dPeriod output quotes

theorem length_values (m : Method) (quotes : List Quote) :
    (m.values quotes).length = m.lengthFor quotes.length := by
  induction m with
  | value x => exact List.length_replicate
  | field f => exact List.length_map _
  | absDiff lhs rhs ihl ihr => rw [values, List.length_zipWith, ihl, ihr, lengthFor]
  | atr period => rw [values, Smoothing.length_values, length_trueRangesOf, lengthFor]
  | sma period source ih => rw [values, length_windows, ih, lengthFor]
  | ema period source ih => rw [values, Smoothing.length_values, ih, lengthFor]
  | bollinger period multiplier output => rw [values, length_windows, List.length_map, lengthFor]
  | macd fast slow signal output =>
    have line := length_lineOf fast slow (quotes.map Quote.close)
    rw [List.length_map] at line
    cases output with
    | line => exact line
    | signal => rw [values, macdOf, Smoothing.length_values, line, lengthFor]
    | histogram =>
      have shorter := Smoothing.length_values_le .exponential signal
        (lineOf fast slow (quotes.map Quote.close))
      rw [values, macdOf, List.length_zipWith, Nat.min_eq_right shorter, Smoothing.length_values,
        line, lengthFor]
  | stochastic kPeriod dPeriod output =>
    cases output with
    | k => exact length_windows kPeriod percentOf quotes
    | d => rw [values, stochasticOf, length_windows, length_windows, lengthFor]

/-- The value of a method at a bar depends on the quotes of that bar and of older ones only: without
the newest quotes, what is left of the values stays as it is. -/
theorem values_drop (m : Method) (quotes : List Quote) (k : Nat) :
    m.values (quotes.drop k) = (m.values quotes).drop k := by
  induction m with
  | value x => rw [values, values, List.drop_replicate, List.length_drop]
  | field f => rw [values, values, List.map_drop]
  | absDiff lhs rhs ihl ihr => rw [values, values, List.drop_zipWith, ihl, ihr]
  | atr period => rw [values, values, trueRangesOf_drop, Smoothing.values_drop]
  | sma period source ih => rw [values, values, ih, windows_drop]
  | ema period source ih => rw [values, values, ih, Smoothing.values_drop]
  | bollinger period multiplier output => rw [values, values, List.map_drop, windows_drop]
  | macd fast slow signal output =>
    cases output with
    | line => rw [values, values, List.map_drop, macdOf, macdOf, lineOf_drop]
    | signal =>
      rw [values, values, List.map_drop, macdOf, macdOf, lineOf_drop, Smoothing.values_drop]
    | histogram =>
      rw [values, values, List.map_drop, macdOf, macdOf, List.drop_zipWith, lineOf_drop,
        Smoothing.values_drop]
  | stochastic kPeriod dPeriod output =>
    cases output with
    | k => rw [values, values, stochasticOf, stochasticOf, windows_drop]
    | d => rw [values, values, stochasticOf, stochasticOf, windows_drop, windows_drop]

/-- The whole series of a method holds its values. -/
theorem evaluate_eq (a : Asset) (m : Method) :
    m.evaluate a = .ok (Series.ofList (m.values a.history)) := by
  induction m with
  | value x => rw [evaluate, Series.replicate_eq_ofList, values, Asset.length_history]
  | field f => rw [evaluate, a.field_eq_ofList, values]
  | absDiff lhs rhs ihl ihr =>
    simp only [evaluate, ihl, ihr, ok_bind, pure_eq_ok, Series.length_ofList,
      Series.truncate_ofList]
    rw [Series.distance_ofList (by simp only [List.length_take]; omega),
      ← List.zipWith_eq_zipWith_take_min, values]
    rfl
  | atr period =>
    rw [evaluate, a.high_eq_ofList, a.low_eq_ofList, a.close_eq_ofList, Indicator.atr,
      trueRanges_ofList, smoothed_ofList, values]
  | sma period source ih => rw [evaluate, ih, ok_bind, sma_ofList, values]
  | ema period source ih => rw [evaluate, ih, ok_bind, ema_ofList, values]
  | bollinger period multiplier output =>
    rw [evaluate, a.close_eq_ofList, bollinger_ofList, values]
  | macd fast slow signal output => rw [evaluate, a.close_eq_ofList, macd_ofList, values]
  | stochastic kPeriod dPeriod output =>
    rw [evaluate, a.high_eq_ofList, a.low_eq_ofList, a.close_eq_ofList, stochastic_ofList, values]

/-- The values of a method at the bars of an asset, newest first, always are there; a bar past their
end has none. -/
theorem perIndexValues_eq (a : Asset) (m : Method) : m.perIndexValues a =
    .ok ((List.range a.length).map fun index => (m.values a.history)[index]?) := by
  rw [perIndexValues, evaluate_eq, ok_bind]
  refine mapM_eq_ok (by simp) ?_
  intro index _ _
  simp only [List.getElem_range, List.getElem_map, Series.length_ofList, Series.read_ofList]
  split
  · rename_i inside
    rw [List.getElem?_eq_getElem inside]
    rfl
  · rename_i outside
    rw [List.getElem?_eq_none (Nat.le_of_not_lt outside)]
    rfl

/-- Checking an index against the number of values first does not change a read of them. -/
theorem check_read_values (a : Asset) (m : Method) (index : Nat) :
    (do RangeError.check index (m.lengthFor a.length)
        (Series.ofList (m.values a.history)).read index) =
      (Series.ofList (m.values a.history)).read index := by
  have length : (m.values a.history).length = m.lengthFor a.length := m.length_values a.history
  by_cases h : index < m.lengthFor a.length
  · rw [RangeError.check_eq_ok_iff.mpr h, ok_bind]
  · rw [RangeError.check_of_le (Nat.le_of_not_lt h), error_bind,
      Series.read_ofList_of_le (by omega), length]

/-- The value of a method at an index is read from its values. -/
theorem valueAt_eq (a : Asset) (m : Method) (index : Nat) :
    m.valueAt a index = (Series.ofList (m.values a.history)).read index := by
  induction m generalizing index with
  | value x =>
    rw [values, Asset.length_history, ← Series.replicate_eq_ofList]
    rfl
  | field f => rw [← check_read_values, valueAt, a.field_eq_ofList, values]
  | absDiff lhs rhs ihl ihr =>
    have length :
        ((lhs.absDiff rhs).values a.history).length = (lhs.absDiff rhs).lengthFor a.length :=
      (lhs.absDiff rhs).length_values a.history
    have shortest : ((lhs.absDiff rhs).values a.history).length =
        min (lhs.values a.history).length (rhs.values a.history).length := List.length_zipWith
    rw [← check_read_values, valueAt]
    by_cases h : index < (lhs.absDiff rhs).lengthFor a.length
    · have left : index < (lhs.values a.history).length := by omega
      have right : index < (rhs.values a.history).length := by omega
      simp only [ihl, ihr, RangeError.check_eq_ok_iff.mpr h, Series.read_ofList_of_lt left,
        Series.read_ofList_of_lt right, ok_bind, pure_eq_ok]
      rw [Series.read_ofList_of_lt (by omega)]
      simp only [values, List.getElem_zipWith]
    · simp only [RangeError.check_of_le (Nat.le_of_not_lt h), error_bind]
  | atr period =>
    rw [← check_read_values, valueAt, a.high_eq_ofList, a.low_eq_ofList, a.close_eq_ofList, atrAt,
      trueRanges_ofList, smoothedAt_ofList, values]
  | sma period source ih =>
    have view : (⟨source.lengthFor a.length, fun i => source.valueAt a i⟩ : Series Float) =
        Series.ofList (source.values a.history) := by
      refine Series.eq_of_reads ?_ ih
      rw [Series.length_ofList]
      exact (source.length_values a.history).symm
    rw [← check_read_values, valueAt]
    simp only [view, smaAt_ofList, values]
  | ema period source ih =>
    rw [← check_read_values, valueAt, evaluate_eq, ok_bind, emaAt_ofList, values]
  | bollinger period multiplier output =>
    rw [← check_read_values, valueAt, a.close_eq_ofList, bollingerAt_ofList, values]
  | macd fast slow signal output =>
    rw [← check_read_values, valueAt, a.close_eq_ofList, macdAt_ofList, values]
  | stochastic kPeriod dPeriod output =>
    rw [← check_read_values, valueAt, a.high_eq_ofList, a.low_eq_ofList, a.close_eq_ofList,
      stochasticAt_ofList, values]

/-- A method always has a series, as long as its length formula says, and its value at any index is
what that series answers there: a value below the length, and past it the range error with the
index asked for and that length. -/
theorem valueAt_agrees_with_evaluate (a : Asset) (m : Method) :
    ∃ series, m.evaluate a = .ok series ∧ series.length = m.lengthFor a.length ∧
      ∀ index, m.valueAt a index = series.read index ∧
        (index < m.lengthFor a.length → ∃ x, series.read index = .ok x) ∧
        (m.lengthFor a.length ≤ index →
          series.read index = .error ⟨index, m.lengthFor a.length⟩) := by
  have length : (m.values a.history).length = m.lengthFor a.length := m.length_values a.history
  refine ⟨Series.ofList (m.values a.history), m.evaluate_eq a, ?_, ?_⟩
  · rw [Series.length_ofList, length]
  · intro index
    refine ⟨m.valueAt_eq a index, ?_, ?_⟩
    · intro inside
      exact ⟨_, Series.read_ofList_of_lt (length ▸ inside)⟩
    · intro outside
      rw [Series.read_ofList_of_le (length ▸ outside), length]

end Method

end TradingRules
