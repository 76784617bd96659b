import Mathlib.Order.Bounds.Basic
import Mathlib.Tactic.FieldSimp
import TradingRules.Proofs.Indicators
import TradingRules.Proofs.Rationals

/-!
# Averages between the data they average

Without rounding, the mean of a window lies between its least and its greatest value, and one step
of smoothing is a blend of the previous value and the new one: the two weights are not negative and
add up to one. By induction from the oldest window on, every smoothed value lies between the least
and the greatest value it could use.
-/

namespace TradingRules

namespace Indicator

open Arithmetic

section Bounds

variable {low high : Rat}

theorem mean_eq (period : Nat) (window : List Rat) : mean period window = window.sum / period := by
  have total := Rational.foldl_add_eq window 0
  rw [zero_add] at total
  exact congrArg (· / (period : Rat)) total

theorem mean_bounds {period : Nat} {window : List Rat} (length : window.length = period)
    (positive : 0 < period) (bounds : ∀ x ∈ window, low ≤ x ∧ x ≤ high) :
    low ≤ mean period window ∧ mean period window ≤ high := by
  have count_pos : (0 : Rat) < period := by exact_mod_cast positive
  have least : period * low ≤ window.sum := by
    have := List.card_nsmul_le_sum window low fun x member => (bounds x member).1
    rwa [length, nsmul_eq_mul] at this
  have greatest : window.sum ≤ period * high := by
    have := List.sum_le_card_nsmul window high fun x member => (bounds x member).2
    rwa [length, nsmul_eq_mul] at this
  rw [mean_eq]
  exact ⟨(le_div_iff₀' count_pos).mpr least, (div_le_iff₀' count_pos).mpr greatest⟩

/-- The part of a step that the new value makes up. -/
def newWeight (kind : Smoothing) (period : Nat) : Rat :=
  match kind with
  | .wilder => 1 / period
  | .exponential => 2 / (period + 1)

theorem newWeight_bounds (kind : Smoothing) {period : Nat} (positive : 0 < period) :
    0 ≤ newWeight kind period ∧ newWeight kind period ≤ 1 := by
  have one_le : (1 : Rat) ≤ period := by exact_mod_cast positive
  cases kind with
  | wilder => exact ⟨div_nonneg (by linarith) (by linarith), (div_le_one₀ (by linarith)).mpr one_le⟩
  | exponential =>
    exact ⟨div_nonneg (by linarith) (by linarith), (div_le_one₀ (by linarith)).mpr (by linarith)⟩

/-- One step blends the previous value with the new one. -/
theorem step_eq_blend (kind : Smoothing) {period : Nat} (positive : 0 < period)
    (previous x : Rat) :
    kind.step period previous x =
      (1 - newWeight kind period) * previous + newWeight kind period * x := by
  have nonzero : (period : Rat) ≠ 0 := by exact_mod_cast Nat.ne_of_gt positive
  cases kind with
  | wilder =>
    have others : ((period - 1 : Nat) : Rat) = period - 1 := by
      rw [Nat.cast_sub positive, Nat.cast_one]
    change (previous * ((period - 1 : Nat) : Rat) + x) / (period : Rat) =
      (1 - 1 / (period : Rat)) * previous + 1 / (period : Rat) * x
    rw [others]
    field_simp
  | exponential =>
    change x * (2 / ((period : Rat) + 1)) + previous * (1 - 2 / ((period : Rat) + 1)) =
      (1 - 2 / ((period : Rat) + 1)) * previous + 2 / ((period : Rat) + 1) * x
    ring

theorem blend_bounds {weight p q : Rat} (part : 0 ≤ weight ∧ weight ≤ 1)
    (first : low ≤ p ∧ p ≤ high) (second : low ≤ q ∧ q ≤ high) :
    low ≤ (1 - weight) * p + weight * q ∧ (1 - weight) * p + weight * q ≤ high := by
  have rest : 0 ≤ 1 - weight := sub_nonneg.mpr part.2
  constructor
  · calc low = (1 - weight) * low + weight * low := by ring
      _ ≤ (1 - weight) * p + weight * q :=
        add_le_add (mul_le_mul_of_nonneg_left first.1 rest)
          (mul_le_mul_of_nonneg_left second.1 part.1)
  · calc (1 - weight) * p + weight * q ≤ (1 - weight) * high + weight * high :=
        add_le_add (mul_le_mul_of_nonneg_left first.2 rest)
          (mul_le_mul_of_nonneg_left second.2 part.1)
      _ = high := by ring

theorem step_bounds (kind : Smoothing) {period : Nat} (positive : 0 < period) {previous x : Rat}
    (before : low ≤ previous ∧ previous ≤ high) (here : low ≤ x ∧ x ≤ high) :
    low ≤ kind.step period previous x ∧ kind.step period previous x ≤ high := by
  rw [step_eq_blend kind positive]
  exact blend_bounds (newWeight_bounds kind positive) before here

/-- Bounds of all values are bounds of all smoothed values: those of the oldest window bound its
mean, and a step stays within them. -/
theorem values_bounds (kind : Smoothing) (period : Nat) {xs : List Rat}
    (bounds : ∀ x ∈ xs, low ≤ x ∧ x ≤ high) :
    ∀ v ∈ kind.values period xs, low ≤ v ∧ v ≤ high := by
  induction xs with
  | nil => exact fun v member => absurd member List.not_mem_nil
  | cons x older ih =>
    rw [List.forall_mem_cons] at bounds
    have before := ih bounds.2
    have length := Smoothing.length_values kind period older
    rw [Smoothing.values]
    split
    · rename_i previous rest smoothed
      rw [smoothed] at before length
      have inside : 0 < windowedLength older.length period := by
        rw [← length]
        exact Nat.zero_lt_succ _
      have step := step_bounds kind (window_inside inside).2
        (before previous List.mem_cons_self) bounds.1
      exact List.forall_mem_cons.mpr ⟨step, before⟩
    · rename_i empty
      rw [empty] at length
      split
      · exact fun v member => absurd member List.not_mem_nil
      · -- There is a window with `x` and none without it, so all values make up the first window.
        rename_i some_window
        have whole : (x :: older).length = period ∧ 0 < period := by
          rw [List.length_nil] at length
          rw [List.length_cons]
          unfold windowedLength at length some_window
          split at length <;> split at some_window <;> omega
        intro v member
        rw [List.mem_singleton.mp member]
        exact mean_bounds whole.1 whole.2 (List.forall_mem_cons.mpr bounds)

/-- Constant values have no other smoothed value. -/
theorem values_constant (kind : Smoothing) (period : Nat) {xs : List Rat} {c : Rat}
    (constant : ∀ x ∈ xs, x = c) : ∀ v ∈ kind.values period xs, v = c := by
  intro v member
  have bounds : c ≤ v ∧ v ≤ c := values_bounds kind period
    (fun x inside => ⟨(constant x inside).ge, (constant x inside).le⟩) v member
  exact le_antisymm bounds.2 bounds.1

end Bounds

section Ranges

theorem trueRange_nonneg (high low previousClose : Rat) : 0 ≤ trueRange high low previousClose := by
  rw [trueRange, Rational.larger_eq, Rational.abs_eq (low - previousClose)]
  exact le_max_of_le_right (abs_nonneg _)

/-- The prices of some bars: three series over lists of one length. -/
structure Prices (high low close : Series Rat) (highs lows closes : List Rat) : Prop where
  high : high.Holds highs
  low : low.Holds lows
  close : close.Holds closes
  length_highs : highs.length = closes.length
  length_lows : lows.length = closes.length

variable {high low close : Series Rat} {highs lows closes : List Rat}

/-- Every bar but the oldest has a true range, and none is negative. -/
theorem Prices.ranges (prices : Prices high low close highs lows closes) :
    ∃ ranges, trueRanges high low close = Series.ofList ranges ∧
      ranges.length = closes.length - 1 ∧ ∀ range ∈ ranges, 0 ≤ range := by
  have previous : close.skip 1 = Series.ofList (closes.drop 1) := by
    rw [Series.skip, prices.close.length]
    refine Series.checked_eq_ofList (List.length_drop) fun i inside => ?_
    have older : 1 + i < closes.length := by
      rw [List.length_drop] at inside
      omega
    rw [prices.close.read older, List.getElem_drop]
  refine ⟨List.zipWith (fun bar close => trueRange bar.1 bar.2 close) (highs.zip lows)
    (closes.drop 1), ?_, ?_, ?_⟩
  · simp only [trueRanges, previous, Series.length_ofList]
    have length_highs := prices.length_highs
    have length_lows := prices.length_lows
    refine Series.checked_eq_ofList ?_ fun i inside => ?_
    · rw [List.length_zipWith, List.length_zip, List.length_drop]
      omega
    · rw [List.length_zipWith, List.length_zip] at inside
      have older : i < (closes.drop 1).length := by omega
      rw [prices.high.read (by omega), prices.low.read (by omega), Series.read_ofList_of_lt older,
        List.getElem_zipWith, List.getElem_zip]
      rfl
  · have length_highs := prices.length_highs
    have length_lows := prices.length_lows
    rw [List.length_zipWith, List.length_zip, List.length_drop]
    omega
  · intro range member
    obtain ⟨i, inside, rfl⟩ := List.getElem_of_mem member
    rw [List.getElem_zipWith]
    exact trueRange_nonneg _ _ _

end Ranges

section Reads

/-- A number from the least to the greatest of some numbers. -/
def Between (xs : List Rat) (v : Rat) : Prop :=
  ∃ least greatest, IsLeast { x | x ∈ xs } least ∧ IsGreatest { x | x ∈ xs } greatest ∧
    least ≤ v ∧ v ≤ greatest

theorem between_of_bounds {xs : List Rat} {v : Rat} (nonempty : xs ≠ [])
    (bounds : ∀ low high, (∀ x ∈ xs, low ≤ x ∧ x ≤ high) → low ≤ v ∧ v ≤ high) :
    Between xs v := by
  have least : IsLeast { x | x ∈ xs } (xs.min nonempty) :=
    ⟨List.min_mem nonempty, fun _ member => List.min_le_of_mem member⟩
  have greatest : IsGreatest { x | x ∈ xs } (xs.max nonempty) :=
    ⟨List.max_mem nonempty, fun _ member => List.le_max_of_mem member⟩
  exact ⟨_, _, least, greatest,
    bounds _ _ fun x member => ⟨least.2 member, greatest.2 member⟩⟩

theorem Between.eq_of_constant {xs : List Rat} {v c : Rat} (between : Between xs v)
    (constant : ∀ x ∈ xs, x = c) : v = c := by
  obtain ⟨least, greatest, ⟨least_mem, -⟩, ⟨greatest_mem, -⟩, above, below⟩ := between
  rw [constant least least_mem] at above
  rw [constant greatest greatest_mem] at below
  exact le_antisymm below above

/-- A read at one index and the series of all values both give `v` there. -/
def Gives (read : Nat → Except RangeError Rat) (series : Except RangeError (Series Rat))
    (index : Nat) (v : Rat) : Prop :=
  read index = .ok v ∧ ∃ values, series = .ok values ∧ values.read index = .ok v

variable {source : Series Rat} {xs : List Rat} (holds : source.Holds xs) {period i : Nat}

include holds

theorem sma_gives (defined : i < windowedLength xs.length period) :
    Gives (smaAt source period) (sma source period) i (mean period ((xs.drop i).take period)) := by
  have windows_of_source : sma source period =
      .ok (Series.ofList (windows period (mean period) xs)) := by
    rw [sma, holds.length]
    exact collect_windows fun _ inside => windowMean_eq holds inside
  have inside : i < (windows period (mean period) xs).length := by rwa [length_windows]
  refine ⟨?_, _, windows_of_source, ?_⟩
  · rw [smaAt, holds.length, RangeError.check_eq_ok_iff.mpr defined, ok_bind,
      windowMean_eq holds (window_inside defined).1]
  · rw [Series.read_ofList_of_lt inside, getElem_windows]

theorem smoothed_gives (kind : Smoothing) (defined : i < (kind.values period xs).length) :
    Gives (smoothedAt source period kind) (smoothed source period kind) i
      (kind.values period xs)[i] := by
  refine ⟨?_, _, smoothed_eq holds kind period, Series.read_ofList_of_lt defined⟩
  obtain ⟨walk, run, visits⟩ := smoothWalk_eq holds kind period defined
  rw [smoothedAt, run, ok_bind, Walk.newest_eq_of_visits visits defined]
  rfl

theorem sma_between (defined : i < windowedLength xs.length period) :
    ∃ v, Gives (smaAt source period) (sma source period) i v ∧
      Between ((xs.drop i).take period) v := by
  obtain ⟨inside, positive⟩ := window_inside defined
  have length : ((xs.drop i).take period).length = period := by
    rw [List.length_take, List.length_drop]
    omega
  refine ⟨_, sma_gives holds defined, between_of_bounds ?_ ?_⟩
  · exact List.ne_nil_of_length_pos (by omega)
  · exact fun _ _ bounds => mean_bounds length positive bounds

theorem smoothed_between (kind : Smoothing) (defined : i < windowedLength xs.length period) :
    ∃ v, Gives (smoothedAt source period kind) (smoothed source period kind) i v ∧
      Between (xs.drop i) v := by
  have inside : i < (kind.values period xs).length := by rwa [Smoothing.length_values]
  have within := windowedLength_le xs.length period
  refine ⟨_, smoothed_gives holds kind inside, between_of_bounds ?_ ?_⟩
  · exact List.ne_nil_of_length_pos (by rw [List.length_drop]; omega)
  · -- The value at `i` is the newest one of what is left without the newer values.
    intro low high bounds
    refine values_bounds kind period bounds _ ?_
    rw [Smoothing.values_drop, List.drop_eq_getElem_cons inside]
    exact List.mem_cons_self

end Reads

section Convergence

/-- How many values convergence and divergence have over `length` values. -/
def macdLength (length fast slow signal : Nat) (output : MacdOutput) : Nat :=
  let line := min (windowedLength length fast) (windowedLength length slow)
  match output with
  | .line => line
  | .signal | .histogram => windowedLength line signal

theorem length_macdOf (xs : List Rat) (fast slow signal : Nat) (output : MacdOutput) :
    (macdOf fast slow signal output xs).length = macdLength xs.length fast slow signal output := by
  have line := length_lineOf fast slow xs
  have average := Smoothing.length_values .exponential signal (lineOf fast slow xs)
  have shorter := Smoothing.length_values_le .exponential signal (lineOf fast slow xs)
  rw [line] at average
  cases output with
  | line => exact line
  | signal => exact average
  | histogram =>
    rw [macdOf, List.length_zipWith, Nat.min_eq_right shorter]
    exact average

theorem sub_of_constant {c : Rat} {xs ys : List Rat} (first : ∀ x ∈ xs, x = c)
    (second : ∀ y ∈ ys, y = c) : ∀ d ∈ List.zipWith (· - ·) xs ys, d = 0 := by
  intro d member
  obtain ⟨i, inside, rfl⟩ := List.getElem_of_mem member
  rw [List.getElem_zipWith, first _ (List.getElem_mem _), second _ (List.getElem_mem _)]
  exact sub_self c

theorem macdOf_constant {xs : List Rat} {c : Rat} (constant : ∀ x ∈ xs, x = c)
    (fast slow signal : Nat) (output : MacdOutput) :
    ∀ v ∈ macdOf fast slow signal output xs, v = 0 := by
  have line : ∀ v ∈ lineOf fast slow xs, v = 0 :=
    sub_of_constant (values_constant .exponential fast constant)
      (values_constant .exponential slow constant)
  have average := values_constant .exponential signal line
  cases output with
  | line => exact line
  | signal => exact average
  | histogram => exact sub_of_constant line average

theorem macd_gives_zero {source : Series Rat} {xs : List Rat} (holds : source.Holds xs) {c : Rat}
    (constant : ∀ x ∈ xs, x = c) {fast slow signal : Nat} {output : MacdOutput} {i : Nat}
    (defined : i < macdLength xs.length fast slow signal output) :
    Gives (macdAt source fast slow signal output) (macd source fast slow signal output) i 0 := by
  have inside : i < (macdOf fast slow signal output xs).length := by rwa [length_macdOf]
  have zero := macdOf_constant constant fast slow signal output _ (List.getElem_mem inside)
  have value : (Series.ofList (macdOf fast slow signal output xs)).read i = .ok 0 := by
    rw [Series.read_ofList_of_lt inside, zero]
  refine ⟨?_, _, macd_eq holds fast slow signal output, value⟩
  rw [macdAt, macdLine_eq holds, ← macdLine_ofList, ← macdAt, macdAt_ofList, value]

end Convergence

/-- **Averages stay between the data they average.** Over any source, whatever it answers past its
length, every simple average lies between the least and the greatest value of its window, and every
smoothed value, exponential or Wilder's, between those at or before its index; over a constant
source all are that constant. So an average true range is never negative and some true range at or
before its bar is no less, and on constant closes every value of convergence and divergence is
zero. -/
theorem averages_stay_between {source : Series Rat} {xs : List Rat} (holds : source.Holds xs)
    {high low close : Series Rat} {highs lows closes : List Rat}
    (prices : Prices high low close highs lows closes) :
    (∀ period i, i < windowedLength xs.length period →
      (∃ v, Gives (smaAt source period) (sma source period) i v ∧
        Between ((xs.drop i).take period) v) ∧
      (∃ v, Gives (emaAt source period) (ema source period) i v ∧ Between (xs.drop i) v) ∧
      ∃ v, Gives (smoothedAt source period .wilder) (smoothed source period .wilder) i v ∧
        Between (xs.drop i) v) ∧
    (∀ c, (∀ x ∈ xs, x = c) → ∀ period i, i < windowedLength xs.length period →
      Gives (smaAt source period) (sma source period) i c ∧
      Gives (emaAt source period) (ema source period) i c ∧
      Gives (smoothedAt source period .wilder) (smoothed source period .wilder) i c) ∧
    (∀ period i, i < windowedLength (closes.length - 1) period →
      ∃ v, Gives (atrAt high low close period) (atr high low close period) i v ∧ 0 ≤ v ∧
        ∃ j range, i ≤ j ∧ (trueRanges high low close).read j = .ok range ∧ v ≤ range) ∧
    (∀ c, (∀ x ∈ xs, x = c) → ∀ fast slow signal output i,
      i < macdLength xs.length fast slow signal output →
      Gives (macdAt source fast slow signal output) (macd source fast slow signal output) i 0) := by
  refine ⟨?_, ?_, ?_, ?_⟩
  · intro period i defined
    exact ⟨sma_between holds defined, smoothed_between holds .exponential defined,
      smoothed_between holds .wilder defined⟩
  · intro c constant period i defined
    have later : ∀ x ∈ xs.drop i, x = c := fun x member => constant x (List.mem_of_mem_drop member)
    have window : ∀ x ∈ (xs.drop i).take period, x = c :=
      fun x member => later x (List.mem_of_mem_take member)
    obtain ⟨simple, simple_gives, simple_between⟩ := sma_between holds defined
    obtain ⟨fading, fading_gives, fading_between⟩ := smoothed_between holds .exponential defined
    obtain ⟨wilder, wilder_gives, wilder_between⟩ := smoothed_between holds .wilder defined
    rw [simple_between.eq_of_constant window] at simple_gives
    rw [fading_between.eq_of_constant later] at fading_gives
    rw [wilder_between.eq_of_constant later] at wilder_gives
    exact ⟨simple_gives, fading_gives, wilder_gives⟩
  · intro period i defined
    obtain ⟨ranges, series, length, nonneg⟩ := prices.ranges
    rw [← length] at defined
    obtain ⟨v, gives, least, greatest, ⟨least_mem, -⟩, ⟨greatest_mem, -⟩, above, below⟩ :=
      smoothed_between (Series.holds_ofList ranges) .wilder defined
    have least_nonneg := nonneg least (List.mem_of_mem_drop least_mem)
    obtain ⟨k, inside, reads⟩ := List.getElem_of_mem greatest_mem
    rw [List.getElem_drop] at reads
    rw [List.length_drop] at inside
    refine ⟨v, ?_, le_trans least_nonneg above, i + k, greatest, Nat.le_add_right i k, ?_, below⟩
    · rw [← series] at gives
      exact gives
    · rw [series, Series.read_ofList_of_lt (by omega), reads]
  · intro c constant fast slow signal output i defined
    exact macd_gives_zero holds constant defined

/-- Three values, three equal closes, and three bars with two true ranges. -/
theorem averages_stay_between_of_three_bars :
    let xs : List Rat := [4, 2, 6]
    let flat : List Rat := [5, 5, 5]
    let highs : List Rat := [16, 13, 11]
    let lows : List Rat := [12, 10, 9]
    let closes : List Rat := [15, 12, 10]
    (Series.ofList xs).Holds xs ∧
      (∀ x ∈ flat, x = 5) ∧
      Prices (.ofList highs) (.ofList lows) (.ofList closes) highs lows closes ∧
      (∃ v, Gives (smaAt (.ofList xs) 2) (sma (.ofList xs) 2) 0 v ∧ Between [4, 2] v) ∧
      (∃ v, Gives (emaAt (.ofList xs) 2) (ema (.ofList xs) 2) 0 v ∧ Between xs v) ∧
      (∃ v, Gives (atrAt (.ofList highs) (.ofList lows) (.ofList closes) 2)
        (atr (.ofList highs) (.ofList lows) (.ofList closes) 2) 0 v ∧ 0 ≤ v) ∧
      Gives (smaAt (.ofList flat) 2) (sma (.ofList flat) 2) 1 5 ∧
      Gives (macdAt (.ofList flat) 1 2 2 .histogram) (macd (.ofList flat) 1 2 2 .histogram)
        0 0 := by
  intro xs flat highs lows closes
  have holds := Series.holds_ofList xs
  have flat_holds := Series.holds_ofList flat
  have constant : ∀ x ∈ flat, x = 5 := by simp [flat]
  have prices : Prices (.ofList highs) (.ofList lows) (.ofList closes) highs lows closes :=
    ⟨Series.holds_ofList highs, Series.holds_ofList lows, Series.holds_ofList closes, rfl, rfl⟩
  obtain ⟨between, -, ranges, -⟩ := averages_stay_between holds prices
  obtain ⟨-, constants, -, zeros⟩ := averages_stay_between flat_holds prices
  obtain ⟨simple, fading, -⟩ := between 2 0 (by decide)
  obtain ⟨v, gives, nonneg, -⟩ := ranges 2 0 (by decide)
  exact ⟨holds, constant, prices, simple, fading, ⟨v, gives, nonneg⟩,
    (constants 5 constant 2 1 (by decide)).1, zeros 5 constant 1 2 2 .histogram 0 (by decide)⟩

end Indicator

end TradingRules
