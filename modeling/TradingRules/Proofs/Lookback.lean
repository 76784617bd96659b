import TradingRules.Proofs.Guarded.Methods

/-!
# Lookback

The value of a method at a bar is made of that bar and of older ones. How far back the first reads
go is one number for each method, the same over every asset: a method has a value wherever that many
older bars are left. A method that is built of windows alone reads nothing beyond them, so two
assets that agree on that stretch give it the same value, whatever times their bars carry. The
recursive averages have no such bound, since each of their values is made of the next older one.
-/

namespace TradingRules

/-- What a quote carries besides its time. -/
structure Figures where
  opening : Float
  high : Float
  low : Float
  close : Float
  volume : Int
deriving DecidableEq

namespace Quote

def figures (q : Quote) : Figures := ⟨q.opening, q.high, q.low, q.close, q.volume⟩

/-- What is read off quotes without their times is the same for quotes with the same figures. -/
theorem map_congr_figures {β : Type} {g : Quote → β}
    (timeless : ∀ q r, q.figures = r.figures → g q = g r) {xs ys : List Quote}
    (same : xs.map figures = ys.map figures) : xs.map g = ys.map g := by
  induction xs generalizing ys with
  | nil =>
    cases ys with
    | nil => rfl
    | cons r _ => cases same
  | cons q older ih =>
    cases ys with
    | nil => cases same
    | cons r others =>
      obtain ⟨here, rest⟩ := List.cons.inj same
      rw [List.map_cons, List.map_cons, timeless q r here, ih rest]

theorem value_congr_figures (f : Field) {q r : Quote} (same : q.figures = r.figures) :
    f.value q = f.value r := by
  obtain ⟨opening, high, low, close, volume⟩ := Figures.mk.inj same
  cases f <;> simp only [Field.value, opening, high, low, close, volume]

/-- The same figures over a stretch are the same over a shorter one. -/
theorem figures_take_of_le {xs ys : List Quote} {n k : Nat} (shorter : k ≤ n)
    (same : (xs.take n).map figures = (ys.take n).map figures) :
    (xs.take k).map figures = (ys.take k).map figures := by
  have cut := congrArg (List.take k) same
  rwa [← List.map_take, ← List.map_take, List.take_take, List.take_take, Nat.min_eq_left shorter]
    at cut

end Quote

/-- Bars that show the same through their indices make the same stretch of a history. -/
theorem Asset.stretch_congr {a b : Asset} {i j n : Nat}
    (agree : ∀ k < n,
      (a.quote? (i + k)).map Quote.figures = (b.quote? (j + k)).map Quote.figures) :
    ((a.history.drop i).take n).map Quote.figures =
      ((b.history.drop j).take n).map Quote.figures := by
  apply List.ext_getElem?
  intro k
  simp only [List.getElem?_map, List.getElem?_take, List.getElem?_drop, ← Asset.quote?_eq]
  split
  · exact agree k ‹k < n›
  · rfl

theorem Indicator.percentOf_congr (v w : List Quote)
    (same : v.map Quote.figures = w.map Quote.figures) : percentOf v = percentOf w := by
  have extremes : ∀ (window : List Quote) (start : Float × Float), window.foldl widen start =
      (window.map Quote.figures).foldl
        (fun so_far figures => (Arithmetic.larger so_far.1 figures.high,
          Arithmetic.smaller so_far.2 figures.low)) start := by
    intro window start
    rw [List.foldl_map]
    rfl
  cases v with
  | nil =>
    cases w with
    | nil => rfl
    | cons _ _ => cases same
  | cons q older =>
    cases w with
    | nil => cases same
    | cons r others =>
      have close : q.close = r.close := congrArg Figures.close (List.cons.inj same).1
      simp only [percentOf, extremes, same, close]

namespace Method

open Indicator

def PositivePeriods : Method → Prop
  | value _ => True
  | field _ => True
  | absDiff lhs rhs => lhs.PositivePeriods ∧ rhs.PositivePeriods
  | atr period => 1 ≤ period
  | sma period source => 1 ≤ period ∧ source.PositivePeriods
  | ema period source => 1 ≤ period ∧ source.PositivePeriods
  | bollinger period _ _ => 1 ≤ period
  | macd fast slow signal _ => 1 ≤ fast ∧ 1 ≤ slow ∧ 1 ≤ signal
  | stochastic kPeriod dPeriod _ => 1 ≤ kPeriod ∧ 1 ≤ dPeriod

/-- How many older bars a method needs to have a value at one. -/
def lookback : Method → Nat
  | value _ => 0
  | field _ => 0
  | absDiff lhs rhs => max lhs.lookback rhs.lookback
  | atr period => period
  | sma period source => period - 1 + source.lookback
  | ema period source => period - 1 + source.lookback
  | bollinger period _ _ => period - 1
  | macd fast slow signal output =>
    let line := max fast slow - 1
    match output with
    | .line => line
    | .signal => line + (signal - 1)
    | .histogram => line + (signal - 1)
  | stochastic kPeriod dPeriod output =>
    match output with
    | .k => kPeriod - 1
    | .d => kPeriod - 1 + (dPeriod - 1)

/-- Built of single bars and of windows of them, without a recursive average. -/
def Windowed : Method → Prop
  | value _ => True
  | field _ => True
  | absDiff lhs rhs => lhs.Windowed ∧ rhs.Windowed
  | sma _ source => source.Windowed
  | bollinger _ _ _ => True
  | stochastic _ _ _ => True
  | atr _ => False
  | ema _ _ => False
  | macd _ _ _ _ => False

theorem lengthFor_eq_sub {m : Method} (positive : m.PositivePeriods) (n : Nat) :
    m.lengthFor n = n - m.lookback := by
  induction m with
  | value x => rfl
  | field f => rfl
  | absDiff lhs rhs ihl ihr =>
    rw [lengthFor, ihl positive.1, ihr positive.2, lookback]
    omega
  | atr period =>
    have whole : 1 ≤ period := positive
    rw [lengthFor, windowedLength_eq_sub whole, lookback]
    omega
  | sma period source ih =>
    rw [lengthFor, windowedLength_eq_sub positive.1, ih positive.2, lookback]
    omega
  | ema period source ih =>
    rw [lengthFor, windowedLength_eq_sub positive.1, ih positive.2, lookback]
    omega
  | bollinger period multiplier output => exact windowedLength_eq_sub positive n
  | macd fast slow signal output =>
    obtain ⟨fast_pos, slow_pos, signal_pos⟩ := positive
    cases output <;>
      simp only [lengthFor, lookback, windowedLength_eq_sub fast_pos,
        windowedLength_eq_sub slow_pos, windowedLength_eq_sub signal_pos] <;>
      omega
  | stochastic kPeriod dPeriod output =>
    cases output <;>
      simp only [lengthFor, lookback, windowedLength_eq_sub positive.1,
        windowedLength_eq_sub positive.2]
    omega

/-- What a method built of windows gives at the `k` newest bars is settled by the figures of those
bars and of as many older ones as it looks back. -/
theorem take_values_congr {m : Method} (windowed : m.Windowed) (positive : m.PositivePeriods)
    {xs ys : List Quote} {k : Nat}
    (same : (xs.take (k + m.lookback)).map Quote.figures =
      (ys.take (k + m.lookback)).map Quote.figures) :
    (m.values xs).take k = (m.values ys).take k := by
  induction m generalizing k with
  | value x =>
    have length := congrArg List.length same
    simp only [lookback, List.length_map, List.length_take] at length
    rw [values, values, List.take_replicate, List.take_replicate]
    exact congrArg (List.replicate · x) length
  | field f =>
    rw [values, values, ← List.map_take, ← List.map_take]
    exact Quote.map_congr_figures (fun _ _ => Quote.value_congr_figures f) same
  | absDiff lhs rhs ihl ihr =>
    have left := ihl windowed.1 positive.1
      (Quote.figures_take_of_le (Nat.add_le_add_left (Nat.le_max_left _ _) k) same)
    have right := ihr windowed.2 positive.2
      (Quote.figures_take_of_le (Nat.add_le_add_left (Nat.le_max_right _ _) k) same)
    rw [values, values, List.take_zipWith, List.take_zipWith, left, right]
  | sma period source ih =>
    rw [lookback, ← Nat.add_assoc] at same
    rw [values, values, ← windows_take positive.1, ← windows_take positive.1,
      ih windowed positive.2 same]
  | bollinger period multiplier output =>
    have closes := Quote.map_congr_figures (fun _ _ => Quote.value_congr_figures .close) same
    rw [List.map_take, List.map_take] at closes
    rw [values, values, ← windows_take positive, ← windows_take positive]
    exact congrArg (windows period _) closes
  | stochastic kPeriod dPeriod output =>
    cases output with
    | k =>
      rw [values, values, stochasticOf, stochasticOf, ← windows_take positive.1,
        ← windows_take positive.1]
      exact windows_congr percentOf_congr kPeriod same
    | d =>
      rw [lookback, Nat.add_comm (kPeriod - 1), ← Nat.add_assoc] at same
      rw [values, values, stochasticOf, stochasticOf, ← windows_take positive.2,
        ← windows_take positive.2, ← windows_take positive.1, ← windows_take positive.1,
        windows_congr percentOf_congr kPeriod same]
  | atr period => exact windowed.elim
  | ema period source ih => exact windowed.elim
  | macd fast slow signal output => exact windowed.elim

/-- A method built of windows has one value at two bars whose stretches agree. -/
theorem valueAt_congr {m : Method} (windowed : m.Windowed) (positive : m.PositivePeriods)
    {a b : Asset} {i j : Nat} (in_a : i < m.lengthFor a.length) (in_b : j < m.lengthFor b.length)
    (agree : ∀ k ≤ m.lookback,
      (a.quote? (i + k)).map Quote.figures = (b.quote? (j + k)).map Quote.figures) :
    ∃ x, m.valueAt a i = .ok x ∧ m.valueAt b j = .ok x := by
  rw [← a.length_history, ← length_values] at in_a
  rw [← b.length_history, ← length_values] at in_b
  have stretch : ((a.history.drop i).take (1 + m.lookback)).map Quote.figures =
      ((b.history.drop j).take (1 + m.lookback)).map Quote.figures :=
    Asset.stretch_congr fun k near => agree k (by omega)
  have newest := take_values_congr windowed positive stretch
  rw [values_drop, values_drop, List.drop_eq_getElem_cons in_a, List.drop_eq_getElem_cons in_b,
    List.take_succ_cons, List.take_succ_cons] at newest
  have value : (m.values a.history)[i] = (m.values b.history)[j] := (List.cons.inj newest).1
  refine ⟨(m.values a.history)[i], ?_, ?_⟩
  · rw [valueAt_eq, Series.read_ofList_of_lt in_a]
  · rw [valueAt_eq, Series.read_ofList_of_lt in_b, value]

/-- With no period of zero a method has a value at all bars but the oldest ones, as many as it looks
back, whatever the number of bars is, and machine words count the same. If it is built of windows,
its value at a bar is settled by the prices and volumes of that bar and of the older ones it looks
back to, over any two assets and wherever in them these bars stand. -/
theorem valueAt_within_lookback (m : Method) (positive : m.PositivePeriods) :
    (∀ n, m.lengthFor n = n - m.lookback) ∧
    (∀ n, n < wordCount → Guarded.lengthFor n m = .ok (n - m.lookback)) ∧
    (m.Windowed → ∀ (a b : Asset) (i j : Nat),
      i < m.lengthFor a.length → j < m.lengthFor b.length →
      (∀ k ≤ m.lookback,
        (a.quote? (i + k)).map Quote.figures = (b.quote? (j + k)).map Quote.figures) →
      ∃ x, m.valueAt a i = .ok x ∧ m.valueAt b j = .ok x) := by
  have length := lengthFor_eq_sub positive
  refine ⟨length, ?_, ?_⟩
  · intro n fits
    rw [Guarded.lengthFor_eq_of_lt fits, length]
  · intro windowed a b i j in_a in_b agree
    exact valueAt_congr windowed positive in_a in_b agree

/-- Two bars of one asset stand a bar deeper in another and on other days. The distance of their
mean from the oscillator is the same at the newer one of the two. -/
theorem valueAt_within_lookback_shifted :
    let day (n : Nat) (valid : 1 ≤ n ∧ n ≤ 31) : Timestamp :=
      ⟨2024, 1, n, 0, 0, 0, by decide, by decide, valid, by decide, by decide, by decide⟩
    let bar (time : Timestamp) (x : Float) : Quote := ⟨time, x, x, x, x, 1000⟩
    let a : Asset := .ofQuotes "FIRST" [bar (day 1 (by decide)) 10.0, bar (day 2 (by decide)) 12.0]
    let b : Asset := .ofQuotes "SECOND" [bar (day 11 (by decide)) 10.0,
      bar (day 12 (by decide)) 12.0, bar (day 13 (by decide)) 5.0]
    let m : Method := .absDiff (.sma 2 (.field .close)) (.stochastic 2 1 .d)
    m.PositivePeriods ∧ m.lookback = 1 ∧ m.lengthFor 3 = 2 ∧
      Guarded.lengthFor 3 m = .ok 2 ∧ ∃ x, m.valueAt a 0 = .ok x ∧ m.valueAt b 1 = .ok x := by
  intro day bar a b m
  have positive : m.PositivePeriods := ⟨⟨by decide, trivial⟩, by decide, by decide⟩
  obtain ⟨length, words, locality⟩ := valueAt_within_lookback m positive
  have agree : ∀ k ≤ m.lookback,
      (a.quote? (0 + k)).map Quote.figures = (b.quote? (1 + k)).map Quote.figures := by
    decide
  exact ⟨positive, rfl, length 3, words 3 (by decide),
    locality ⟨trivial, trivial⟩ a b 0 1 (by decide) (by decide) agree⟩

end Method

end TradingRules
