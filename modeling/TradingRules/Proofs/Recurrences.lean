import TradingRules.Proofs.Methods

/-!
# Recurrences of the recursive indicators

The averages that a walk over indices fills in from the oldest one satisfy their recurrence at every
index: the oldest one is the mean of the oldest window, and every other is one step from the next
older one. Convergence and divergence overlay two such averages, and a third one of their
difference, all counted from the newest index. A period of zero has no average.
-/

namespace TradingRules

namespace Indicator

variable {α : Type} [Arithmetic α]

/-- Averages over windows of `period` values that start from the mean of the oldest window and go on
by `step` from the next older average and the value at their own index. -/
structure Recurs (period : Nat) (step : α → α → α) (values averages : List α) : Prop where
  length : averages.length = values.length - period + 1
  oldest : averages[values.length - period]? =
    some (mean period (values.drop (values.length - period)))
  newer : ∀ i (inside : i + 1 < averages.length) (here : i < values.length),
    averages[i] = step averages[i + 1] values[i]

theorem Recurs.of_smoothing (kind : Smoothing) {period : Nat} {values : List α}
    (positive : 1 ≤ period) (enough : period ≤ values.length) :
    Recurs period (kind.step period) values (kind.values period values) := by
  have length : (kind.values period values).length = values.length - period + 1 := by
    rw [Smoothing.length_values, windowedLength_eq_sub positive]
    omega
  refine ⟨length, ?_, ?_⟩
  · rw [List.getElem?_eq_getElem (by omega),
      Smoothing.getElem_values_oldest kind period values length.symm]
  · intro i inside here
    exact Smoothing.getElem_values_step kind period values inside here

/-- The true ranges of an asset: one for each bar that has an older one, against the close there. -/
structure RangesOf (a : Asset) (ranges : List Float) : Prop where
  series : trueRanges a.high a.low a.close = Series.ofList ranges
  length : ranges.length = a.length - 1
  each : ∀ i q older, a.quote? i = some q → a.quote? (i + 1) = some older →
    ranges[i]? = some (trueRange q.high q.low older.close)

theorem rangesOf_history (a : Asset) : RangesOf a (trueRangesOf a.history) := by
  refine ⟨?_, length_trueRangesOf a.history, ?_⟩
  · rw [a.high_eq_ofList, a.low_eq_ofList, a.close_eq_ofList, trueRanges_ofList]
  · intro i q older here next
    rw [a.quote?_eq] at here next
    rw [trueRangesOf, List.getElem?_zipWith, here, List.getElem?_tail, next]

theorem atr_recurs (a : Asset) {period : Nat} (positive : 1 ≤ period)
    (enough : period ≤ a.length - 1) :
    ∃ averages, atr a.high a.low a.close period = .ok (Series.ofList averages) ∧
      averages.length = a.length - period ∧
      Recurs period (Smoothing.wilder.step period) (trueRangesOf a.history) averages := by
  have length : (trueRangesOf a.history).length = a.length - 1 := length_trueRangesOf a.history
  have recurs := Recurs.of_smoothing .wilder positive (length ▸ enough)
  refine ⟨_, ?_, ?_, recurs⟩
  · rw [atr, (rangesOf_history a).series, smoothed_ofList]
  · rw [recurs.length, length]
    omega

/-- The series of convergence and divergence over a source of `n` values, with the two averages they
are made of. Lists pair up from the newest value on. -/
structure Converges (source : Series α) (n fast slow signal : Nat)
    (fastAverage slowAverage line signalLine histogram : List α) : Prop where
  fast_average : ema source fast = .ok (Series.ofList fastAverage)
  slow_average : ema source slow = .ok (Series.ofList slowAverage)
  line_series : macd source fast slow signal .line = .ok (Series.ofList line)
  line_difference : line = List.zipWith (· - ·) fastAverage slowAverage
  length_line : (line.length : Int) =
    if fast = 0 ∨ slow = 0 then 0 else max 0 (min ((n : Int) - fast) (n - slow) + 1)
  signal_series : macd source fast slow signal .signal = .ok (Series.ofList signalLine)
  signal_average : ema (Series.ofList line) signal = .ok (Series.ofList signalLine)
  length_signal : (signalLine.length : Int) =
    if signal = 0 then 0 else max 0 ((line.length : Int) - (signal - 1))
  histogram_series : macd source fast slow signal .histogram = .ok (Series.ofList histogram)
  histogram_difference : histogram = List.zipWith (· - ·) line signalLine
  length_histogram : histogram.length = signalLine.length

theorem windowedLength_eq_ite (length period : Nat) : (windowedLength length period : Int) =
    if period = 0 then 0 else max 0 ((length : Int) - period + 1) := by
  unfold windowedLength
  repeat' split
  all_goals omega

theorem macd_converges {source : Series α} {xs : List α} (holds : source.Holds xs)
    (fast slow signal : Nat) :
    ∃ fastAverage slowAverage line signalLine histogram,
      Converges source xs.length fast slow signal fastAverage slowAverage line signalLine
        histogram := by
  have line := length_lineOf fast slow xs
  have averaged := Smoothing.length_values .exponential signal (lineOf fast slow xs)
  have shorter := Smoothing.length_values_le .exponential signal (lineOf fast slow xs)
  exact ⟨_, _, _, _, _,
    { fast_average := ema_eq holds fast
      slow_average := ema_eq holds slow
      line_series := macd_eq holds fast slow signal .line
      line_difference := rfl
      length_line := by
        have fast_length := windowedLength_eq_ite xs.length fast
        have slow_length := windowedLength_eq_ite xs.length slow
        simp only [macdOf, line]
        split at fast_length <;> split at slow_length <;> split <;> omega
      signal_series := macd_eq holds fast slow signal .signal
      signal_average := ema_ofList _ signal
      length_signal := by
        have signal_length := windowedLength_eq_ite (lineOf fast slow xs).length signal
        simp only [macdOf, averaged]
        split at signal_length <;> split <;> omega
      histogram_series := macd_eq holds fast slow signal .histogram
      histogram_difference := rfl
      length_histogram := by
        simp only [macdOf, List.length_zipWith]
        omega }⟩

/-- Over any source an exponential average starts from the mean of its oldest window and weighs each
newer value by two parts in a period and one; over any asset the average true range starts from the
mean of the oldest true ranges and weighs each newer one as one part of a period. The line, the
signal and the histogram are the differences and the average of averages they are named for, aligned
on the newest index, for all periods in either order; where a period is zero there is no average and
so none of what is made of it. -/
theorem averages_satisfy_recurrences {source : Series Float} {xs : List Float}
    (holds : source.Holds xs) (a : Asset) :
    (∀ period, 1 ≤ period → period ≤ xs.length →
      ∃ averages, ema source period = .ok (Series.ofList averages) ∧
        Recurs period
          (fun previous x =>
            let weight := Float.ofNat 2 / (Float.ofNat period + Float.ofNat 1)
            x * weight + previous * (Float.ofNat 1 - weight))
          xs averages) ∧
    (∀ period, 1 ≤ period → period ≤ a.length - 1 →
      ∃ ranges averages, RangesOf a ranges ∧
        atr a.high a.low a.close period = .ok (Series.ofList averages) ∧
        averages.length = a.length - period ∧
        Recurs period
          (fun previous x =>
            (previous * Float.ofNat (period - 1) + x) / Float.ofNat period)
          ranges averages) ∧
    ∀ fast slow signal, ∃ fastAverage slowAverage line signalLine histogram,
      Converges source xs.length fast slow signal fastAverage slowAverage line signalLine
        histogram := by
  refine ⟨?_, ?_, macd_converges holds⟩
  · intro period positive enough
    exact ⟨_, ema_eq holds period, Recurs.of_smoothing .exponential positive enough⟩
  · intro period positive enough
    obtain ⟨averages, series, length, recurs⟩ := atr_recurs a positive enough
    exact ⟨_, averages, rangesOf_history a, series, length, recurs⟩

/-- Four closes, averaged over two and over three of them, and three bars with two true ranges. -/
theorem averages_satisfy_recurrences_of_three_bars :
    let xs : List Float := [4.0, 3.0, 5.0, 1.0]
    let day (n : Nat) (valid : 1 ≤ n ∧ n ≤ 31) : Timestamp :=
      ⟨2024, 1, n, 0, 0, 0, by decide, by decide, valid, by decide, by decide, by decide⟩
    let a : Asset := .ofQuotes "TEST" [⟨day 1 (by decide), 10.0, 11.0, 9.0, 10.0, 1000⟩,
      ⟨day 2 (by decide), 11.0, 13.0, 10.0, 12.0, 1000⟩,
      ⟨day 3 (by decide), 13.0, 16.0, 12.0, 15.0, 1000⟩]
    (Series.ofList xs).Holds xs ∧
      (∃ averages, ema (Series.ofList xs) 2 = .ok (Series.ofList averages) ∧
        averages.length = 3 ∧ averages[2]? = some 3.0) ∧
      (∃ averages, atr a.high a.low a.close 2 = .ok (Series.ofList averages) ∧
        averages.length = 1) ∧
      ∃ fastAverage slowAverage line signalLine histogram,
        Converges (Series.ofList xs) 4 3 2 1 fastAverage slowAverage line signalLine histogram ∧
        line.length = 2 ∧ histogram.length = 2 := by
  intro xs day a
  have holds := Series.holds_ofList xs
  obtain ⟨exponential, wilder, convergence⟩ := averages_satisfy_recurrences holds a
  obtain ⟨averages, series, recurs⟩ := exponential 2 (by decide) (by decide)
  have seed : mean 2 (xs.drop 2) = 3.0 := by decide +kernel
  have oldest : averages[2]? = some 3.0 := recurs.oldest.trans (congrArg some seed)
  obtain ⟨-, smoothed, -, smoothed_series, length, -⟩ := wilder 2 (by decide) (by decide)
  have bars : a.length - 2 = 1 := by decide
  obtain ⟨fastAverage, slowAverage, line, signalLine, histogram, converges⟩ := convergence 3 2 1
  have line_length : line.length = 2 := Int.natCast_inj.mp converges.length_line
  have histogram_length : histogram.length = 2 := by
    have signal_length := converges.length_signal
    rw [line_length] at signal_length
    exact converges.length_histogram.trans (Int.natCast_inj.mp signal_length)
  exact ⟨holds, ⟨averages, series, recurs.length, oldest⟩,
    ⟨smoothed, smoothed_series, length.trans bars⟩, fastAverage, slowAverage, line, signalLine,
    histogram, converges, line_length, histogram_length⟩

/-- With a fast period of zero the count of whole windows would give three values of the line over
three closes, but there is no average over nothing and the line is empty. -/
theorem length_line_of_no_period :
    ¬ ∀ (xs : List Float) (fast slow signal : Nat),
      ∃ line, macd (Series.ofList xs) fast slow signal .line = .ok (Series.ofList line) ∧
        (line.length : Int) = max 0 (min ((xs.length : Int) - fast) (xs.length - slow) + 1) := by
  intro claim
  obtain ⟨line, series, length⟩ := claim [3.0, 2.0, 1.0] 0 1 1
  rw [macd_ofList] at series
  have same : 0 = line.length := by
    have lengths := congrArg Series.length (Except.ok.inj series)
    rwa [Series.length_ofList, Series.length_ofList, macdOf, length_lineOf] at lengths
  rw [← same] at length
  cases length

end Indicator

end TradingRules
