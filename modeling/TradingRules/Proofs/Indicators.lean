import TradingRules.Indicator.Bollinger
import TradingRules.Indicator.Macd
import TradingRules.Indicator.Stochastic
import TradingRules.Indicator.TrueRange
import TradingRules.Proofs.Smoothing
import TradingRules.Quote

/-!
# Indicators over lists

What each indicator makes of a list of prices or of quotes, newest first. Every indicator has two
ways to be read, a whole series and a value at one index, and both give these lists.
-/

namespace TradingRules

namespace Indicator

open Smoothing

section Bands

/-- The standard deviation of a window around its mean. -/
def deviation (period : Nat) (middle : Float) (window : List Float) : Float :=
  (window.foldl (fun sum x => sum + (x - middle) * (x - middle)) 0 / Float.ofNat period).sqrt

def bandOf (period : Nat) (multiplier : Float) (output : Band) (window : List Float) : Float :=
  let middle := mean period window
  match output with
  | .middle => middle
  | .upper => middle + multiplier * deviation period middle window
  | .lower => middle - multiplier * deviation period middle window

theorem windowDeviation_ofList {xs : List Float} {index period : Nat}
    (inside : index + period ≤ xs.length) (middle : Float) :
    windowDeviation (Series.ofList xs) index period middle =
      .ok (deviation period middle ((xs.drop index).take period)) := by
  have step : ∀ (sum : Float) i (h : i < xs.length),
      (do
        let x ← (Series.ofList xs).read i
        return sum + (x - middle) * (x - middle)) =
        Except.ok (sum + (xs[i] - middle) * (xs[i] - middle)) := by
    intro sum i h
    rw [Series.read_ofList_of_lt h]
    rfl
  rw [windowDeviation,
    foldlM_window (g := fun sum x => sum + (x - middle) * (x - middle)) step inside]
  rfl

theorem band_ofList {xs : List Float} {index period : Nat} (inside : index + period ≤ xs.length)
    (multiplier : Float) (output : Band) :
    band (Series.ofList xs) period multiplier output index =
      .ok (bandOf period multiplier output ((xs.drop index).take period)) := by
  cases output <;>
    simp only [band, bandOf, windowMean_ofList inside, windowDeviation_ofList inside, ok_bind,
      pure_eq_ok]

theorem bollinger_ofList (xs : List Float) (period : Nat) (multiplier : Float) (output : Band) :
    bollinger (Series.ofList xs) period multiplier output =
      .ok (Series.ofList (windows period (bandOf period multiplier output) xs)) := by
  rw [bollinger, Series.length_ofList]
  exact collect_windows fun i inside => band_ofList inside multiplier output

theorem bollingerAt_ofList (xs : List Float) (period : Nat) (multiplier : Float) (output : Band)
    (index : Nat) :
    bollingerAt (Series.ofList xs) period multiplier output index =
      (Series.ofList (windows period (bandOf period multiplier output) xs)).read index := by
  rw [bollingerAt, Series.length_ofList]
  exact read_windows fun i inside => band_ofList inside multiplier output

end Bands

section Convergence

variable {α : Type} [Arithmetic α]

theorem ema_eq {source : Series α} {xs : List α} (holds : source.Holds xs) (period : Nat) :
    ema source period = .ok (Series.ofList (exponential.values period xs)) :=
  smoothed_eq holds .exponential period

theorem ema_ofList (xs : List α) (period : Nat) :
    ema (Series.ofList xs) period = .ok (Series.ofList (exponential.values period xs)) :=
  ema_eq (Series.holds_ofList xs) period

theorem emaAt_ofList (xs : List α) (period index : Nat) :
    emaAt (Series.ofList xs) period index =
      (Series.ofList (exponential.values period xs)).read index :=
  smoothedAt_ofList xs .exponential period index

/-- The fast average less the slow one, where both are defined. -/
def lineOf (fast slow : Nat) (xs : List α) : List α :=
  List.zipWith (· - ·) (exponential.values fast xs) (exponential.values slow xs)

def macdOf (fast slow signal : Nat) (output : MacdOutput) (xs : List α) : List α :=
  match output with
  | .line => lineOf fast slow xs
  | .signal => exponential.values signal (lineOf fast slow xs)
  | .histogram =>
    List.zipWith (· - ·) (lineOf fast slow xs) (exponential.values signal (lineOf fast slow xs))

theorem lineOf_drop (fast slow : Nat) (xs : List α) (k : Nat) :
    lineOf fast slow (xs.drop k) = (lineOf fast slow xs).drop k := by
  rw [lineOf, lineOf, List.drop_zipWith, values_drop, values_drop]

theorem length_lineOf (fast slow : Nat) (xs : List α) :
    (lineOf fast slow xs).length =
      min (windowedLength xs.length fast) (windowedLength xs.length slow) := by
  rw [lineOf, List.length_zipWith, length_values, length_values]

theorem macdLine_eq {source : Series α} {xs : List α} (holds : source.Holds xs) (fast slow : Nat) :
    macdLine source fast slow = .ok (Series.ofList (lineOf fast slow xs)) := by
  simp only [macdLine, ema_eq holds, ok_bind, pure_eq_ok, Series.length_ofList]
  refine congrArg Except.ok (Series.checked_eq_ofList (by rw [lineOf, List.length_zipWith]) ?_)
  intro i h
  have both : i < (exponential.values fast xs).length ∧
      i < (exponential.values slow xs).length := by
    rw [lineOf, List.length_zipWith] at h
    omega
  rw [Series.read_ofList_of_lt both.1, Series.read_ofList_of_lt both.2]
  simp only [ok_bind, lineOf, List.getElem_zipWith]

theorem macdLine_ofList (xs : List α) (fast slow : Nat) :
    macdLine (Series.ofList xs) fast slow = .ok (Series.ofList (lineOf fast slow xs)) :=
  macdLine_eq (Series.holds_ofList xs) fast slow

/-- The difference of two series at one index, the shorter one read first. -/
theorem read_zipWith_sub {xs ys : List α} (shorter : ys.length ≤ xs.length) (index : Nat) :
    (do
      let y ← (Series.ofList ys).read index
      return (← (Series.ofList xs).read index) - y) =
      (Series.ofList (List.zipWith (· - ·) xs ys)).read index := by
  have length : (List.zipWith (· - ·) xs ys).length = ys.length := by
    rw [List.length_zipWith]
    exact Nat.min_eq_right shorter
  by_cases h : index < ys.length
  · have longer : index < xs.length := by omega
    have difference : index < (List.zipWith (· - ·) xs ys).length := by omega
    rw [Series.read_ofList_of_lt h, Series.read_ofList_of_lt longer,
      Series.read_ofList_of_lt difference, List.getElem_zipWith]
    rfl
  · have outside := Nat.le_of_not_lt h
    have beyond : (List.zipWith (· - ·) xs ys).length ≤ index := by omega
    rw [Series.read_ofList_of_le outside, error_bind, Series.read_ofList_of_le beyond, length]

theorem macdAt_ofList (xs : List α) (fast slow signal : Nat) (output : MacdOutput) (index : Nat) :
    macdAt (Series.ofList xs) fast slow signal output index =
      (Series.ofList (macdOf fast slow signal output xs)).read index := by
  rw [macdAt, macdLine_ofList, ok_bind]
  cases output with
  | line => rfl
  | signal => exact emaAt_ofList _ signal index
  | histogram =>
    simp only [emaAt_ofList]
    exact read_zipWith_sub (length_values_le _ _ _) index

theorem macd_eq {source : Series α} {xs : List α} (holds : source.Holds xs)
    (fast slow signal : Nat) (output : MacdOutput) :
    macd source fast slow signal output =
      .ok (Series.ofList (macdOf fast slow signal output xs)) := by
  rw [macd, macdLine_eq holds, ok_bind]
  cases output with
  | line => simp only [Series.toList_ofList, ok_bind]; rfl
  | signal => exact ema_ofList _ signal
  | histogram =>
    simp only [ema_ofList, ok_bind, Series.length_ofList, macdOf]
    have shorter := length_values_le exponential signal (lineOf fast slow xs)
    refine Series.collect_eq_ofList (by rw [List.length_zipWith]; omega) ?_
    intro i h
    rw [List.length_zipWith] at h
    have in_line : i < (lineOf fast slow xs).length := by omega
    have in_signal : i < (exponential.values signal (lineOf fast slow xs)).length := by omega
    rw [Series.read_ofList_of_lt in_line, Series.read_ofList_of_lt in_signal]
    simp only [ok_bind, pure_eq_ok, List.getElem_zipWith]

theorem macd_ofList (xs : List α) (fast slow signal : Nat) (output : MacdOutput) :
    macd (Series.ofList xs) fast slow signal output =
      .ok (Series.ofList (macdOf fast slow signal output xs)) :=
  macd_eq (Series.holds_ofList xs) fast slow signal output

end Convergence

section Quotes

/-- The true range of each quote that has an older one. -/
def trueRangesOf (quotes : List Quote) : List Float :=
  List.zipWith (fun q older => trueRange q.high q.low older.close) quotes quotes.tail

theorem length_trueRangesOf (quotes : List Quote) :
    (trueRangesOf quotes).length = quotes.length - 1 := by
  rw [trueRangesOf, List.length_zipWith, List.length_tail]
  omega

theorem trueRangesOf_drop (quotes : List Quote) (k : Nat) :
    trueRangesOf (quotes.drop k) = (trueRangesOf quotes).drop k := by
  rw [trueRangesOf, trueRangesOf, List.drop_zipWith, List.tail_drop, List.drop_tail]

theorem trueRanges_ofList (quotes : List Quote) :
    trueRanges (Series.ofList (quotes.map Quote.high)) (Series.ofList (quotes.map Quote.low))
      (Series.ofList (quotes.map Quote.close)) = Series.ofList (trueRangesOf quotes) := by
  simp only [trueRanges, Series.skip_ofList, Series.length_ofList]
  refine Series.checked_eq_ofList (by simp [length_trueRangesOf]) ?_
  intro i h
  rw [length_trueRangesOf] at h
  have here : i < quotes.length := by omega
  have older : i < (quotes.drop 1).length := by
    rw [List.length_drop]
    omega
  rw [Series.read_map_of_lt here, Series.read_map_of_lt here, ← List.map_drop,
    Series.read_map_of_lt older]
  simp [trueRangesOf]

/-- The highest high and the lowest low so far, widened by a quote. -/
def widen (extremes : Float × Float) (q : Quote) : Float × Float :=
  (Arithmetic.larger extremes.1 q.high, Arithmetic.smaller extremes.2 q.low)

/-- The close of the newest quote, placed between the lowest low and the highest high. -/
def percentOf (window : List Quote) : Float :=
  match window with
  | [] => 50.0
  | newest :: _ =>
    let extremes := window.foldl widen (-1.0 / 0.0, 1.0 / 0.0)
    let range := extremes.1 - extremes.2
    if range == 0.0 then 50.0 else 100.0 * (newest.close - extremes.2) / range

def stochasticOf (kPeriod dPeriod : Nat) (output : StochasticOutput) (quotes : List Quote) :
    List Float :=
  match output with
  | .k => windows kPeriod percentOf quotes
  | .d => windows dPeriod (mean dPeriod) (windows kPeriod percentOf quotes)

theorem windowExtremes_ofList {quotes : List Quote} {index period : Nat}
    (inside : index + period ≤ quotes.length) :
    windowExtremes (Series.ofList (quotes.map Quote.high)) (Series.ofList (quotes.map Quote.low))
      index period =
        .ok (((quotes.drop index).take period).foldl widen (-1.0 / 0.0, 1.0 / 0.0)) := by
  refine foldlM_window ?_ inside _
  intro extremes i h
  simp only [Series.read_map_of_lt h, ok_bind, pure_eq_ok, widen]

theorem percentK_ofList (quotes : List Quote) (period : Nat) :
    percentK (Series.ofList (quotes.map Quote.high)) (Series.ofList (quotes.map Quote.low))
      (Series.ofList (quotes.map Quote.close)) period =
      Series.ofList (windows period percentOf quotes) := by
  simp only [percentK, Series.length_ofList, List.length_map]
  refine Series.checked_eq_ofList (length_windows period percentOf quotes) ?_
  intro i h
  rw [getElem_windows]
  rw [length_windows] at h
  obtain ⟨inside, positive⟩ := window_inside h
  have here : i < quotes.length := by omega
  have close : (Series.ofList (quotes.map Quote.close)).read i = .ok quotes[i].close :=
    Series.read_map_of_lt here
  have window : (quotes.drop i).take period =
      quotes[i] :: (quotes.drop (i + 1)).take (period - 1) := by
    rw [List.drop_eq_getElem_cons here, ← List.take_succ_cons, Nat.sub_add_cancel positive]
  rw [windowExtremes_ofList inside, ok_bind, close, window]
  simp only [percentOf, ok_bind, pure_eq_ok]
  split <;> rfl

theorem stochasticAt_ofList (quotes : List Quote) (kPeriod dPeriod : Nat)
    (output : StochasticOutput) (index : Nat) :
    stochasticAt (Series.ofList (quotes.map Quote.high)) (Series.ofList (quotes.map Quote.low))
      (Series.ofList (quotes.map Quote.close)) kPeriod dPeriod output index =
      (Series.ofList (stochasticOf kPeriod dPeriod output quotes)).read index := by
  simp only [stochasticAt, percentK_ofList]
  cases output with
  | k => rfl
  | d => exact smaAt_ofList _ dPeriod index

theorem stochastic_ofList (quotes : List Quote) (kPeriod dPeriod : Nat)
    (output : StochasticOutput) :
    stochastic (Series.ofList (quotes.map Quote.high)) (Series.ofList (quotes.map Quote.low))
      (Series.ofList (quotes.map Quote.close)) kPeriod dPeriod output =
      .ok (Series.ofList (stochasticOf kPeriod dPeriod output quotes)) := by
  simp only [stochastic, percentK_ofList]
  cases output with
  | k => simp only [Series.toList_ofList]; rfl
  | d => exact sma_ofList _ dPeriod

end Quotes

end Indicator

end TradingRules
