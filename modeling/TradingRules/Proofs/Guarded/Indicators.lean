import TradingRules.Proofs.Guarded.Series
import TradingRules.Proofs.Indicators

/-!
# Guarded indicators

Windows are counted and visited in machine words, a walk writes only to places of its series, and a
series is skipped and read within its length. Over sources that fit a machine word all of this is
so, whatever the periods are: an index is only looked at once it is known to start a whole window,
and a window ends inside its source.
-/

namespace TradingRules.Guarded

open Arithmetic

section Windows

variable {α : Type} [Arithmetic α]

def windowedLength (length period : Nat) : Guarded Nat :=
  if period = 0 ∨ length < period then .ok 0
  else do sum (← difference length period) 1

/-- The indices of a window. -/
def span (index period : Nat) : Guarded (List Nat) := do
  let stop ← sum index period
  return List.range' index (stop - index)

def windowMean (source : GuardedSeries α) (index period : Nat) : Guarded α := do
  let sum ← (← span index period).foldlM (fun sum i => return sum + (← source.read i)) (count 0)
  return sum / count period

def smaAt (source : GuardedSeries α) (period index : Nat) : Guarded α := do
  of (RangeError.check index (← windowedLength source.length period))
  windowMean source index period

def sma (source : GuardedSeries α) (period : Nat) : Guarded (GuardedSeries α) := do
  let length ← windowedLength source.length period
  GuardedSeries.collect length fun i => windowMean source i period

theorem windowedLength_eq {length : Nat} (fits : length < wordCount) (period : Nat) :
    windowedLength length period = .ok (Indicator.windowedLength length period) := by
  unfold windowedLength Indicator.windowedLength
  split
  · rfl
  · have ordered : period ≤ length := by omega
    have word : length - period + 1 < wordCount := by omega
    rw [difference_eq ordered, ok_bind, sum_eq word]

theorem span_eq {index period : Nat} (fits : index + period < wordCount) :
    span index period = .ok (List.range' index period) := by
  rw [span, sum_eq fits, ok_bind, Nat.add_sub_cancel_left]
  rfl

/-- An index that starts a whole window of a source that fits a machine word ends it at one. -/
theorem window_fits {length period index : Nat} (fits : length < wordCount)
    (whole : index < Indicator.windowedLength length period) : index + period < wordCount :=
  Nat.lt_of_le_of_lt (Indicator.window_inside whole).1 fits

theorem windowMean_eq (source : Series α) {index period : Nat}
    (fits : index + period < wordCount) :
    windowMean source.guarded index period = of (Indicator.windowMean source index period) := by
  have step : ∀ (sum : α) (i : Nat),
      (do return sum + (← source.guarded.read i) : Guarded α) =
        of (do return sum + (← source.read i)) := by
    intro sum i
    simp only [GuardedSeries.read_guarded, of_bind, pure_eq_ok, of_ok]
  rw [windowMean, Indicator.windowMean, span_eq fits, ok_bind, of_bind]
  rw [foldlM_eq_of fun sum i _ => step sum i]
  rfl

/-- A read that is checked against the number of windows is only made where there is a window. -/
theorem check_windowed {β : Type} {length : Nat} (fits : length < wordCount) (period index : Nat)
    {guardedValue : Guarded β} {value : Except RangeError β}
    (each : index < Indicator.windowedLength length period → guardedValue = of value) :
    (do
      of (RangeError.check index (← windowedLength length period))
      guardedValue) =
      of (do
        RangeError.check index (Indicator.windowedLength length period)
        value) := by
  rw [windowedLength_eq fits, ok_bind, of_bind]
  by_cases whole : index < Indicator.windowedLength length period
  · rw [RangeError.check_eq_ok_iff.mpr whole, of_ok, ok_bind, ok_bind, each whole]
  · rw [RangeError.check_of_le (Nat.le_of_not_lt whole)]
    rfl

theorem smaAt_eq {source : Series α} (fits : source.length < wordCount) (period index : Nat) :
    smaAt source.guarded period index = of (Indicator.smaAt source period index) :=
  check_windowed fits period index fun whole => windowMean_eq source (window_fits fits whole)

theorem sma_eq {source : Series α} (fits : source.length < wordCount) (period : Nat) :
    sma source.guarded period = Series.guarded <$> of (Indicator.sma source period) := by
  rw [sma, GuardedSeries.length_guarded, windowedLength_eq fits, ok_bind]
  exact GuardedSeries.collect_eq fun i whole => windowMean_eq source (window_fits fits whole)

end Windows

section Walks

variable {α : Type} [Arithmetic α]

def step (kind : Smoothing) (period : Nat) (previous x : α) : Guarded α :=
  match kind with
  | .wilder => do return (previous * count (← difference period 1) + x) / count period
  | .exponential => .ok (Smoothing.exponential.step period previous x)

def smoothDown (source : GuardedSeries α) (period : Nat) (kind : Smoothing) (stop : Nat) :
    (index : Nat) → (previous : α) → Guarded (List (Nat × α))
  | 0, _ => .ok []
  | i + 1, previous =>
    if i < stop then .ok []
    else do
      let x ← source.read i
      let value ← step kind period previous x
      return (i, value) :: (← smoothDown source period kind stop i value)

def smoothWalk (source : GuardedSeries α) (period : Nat) (kind : Smoothing) (stop : Nat) :
    Guarded (Indicator.Walk α) := do
  let length ← windowedLength source.length period
  of (RangeError.check stop length)
  let start ← difference length 1
  let value ← windowMean source start period
  return ⟨(start, value), ← smoothDown source period kind stop start value⟩

def smoothedAt (source : GuardedSeries α) (period : Nat) (kind : Smoothing) (index : Nat) :
    Guarded α := do
  return (← smoothWalk source period kind index).newest

/-- The whole series, with a place for each index that starts a window. -/
def smoothed (source : GuardedSeries α) (period : Nat) (kind : Smoothing) :
    Guarded (GuardedSeries α) := do
  let length ← windowedLength source.length period
  if length = 0 then return (Series.ofList []).guarded
  else
    let walk ← smoothWalk source period kind 0
    forM walk.visits fun visit => require (visit.1 < length) (.outside visit.1 length)
    return (Series.ofList (walk.visits.reverse.map (·.2))).guarded

theorem step_eq {period : Nat} (positive : 0 < period) (kind : Smoothing) (previous x : α) :
    step kind period previous x = .ok (kind.step period previous x) := by
  cases kind with
  | wilder =>
    rw [step, difference_eq positive]
    rfl
  | exponential => rfl

theorem smoothDown_eq (source : Series α) {period : Nat} (positive : 0 < period)
    (kind : Smoothing) (stop index : Nat) (previous : α) :
    smoothDown source.guarded period kind stop index previous =
      of (Indicator.smoothDown source period kind stop index previous) := by
  induction index generalizing previous with
  | zero => rfl
  | succ i ih =>
    rw [smoothDown, Indicator.smoothDown]
    split
    · rfl
    · simp only [GuardedSeries.read_guarded, step_eq positive, ih, of_bind, ok_bind, pure_eq_ok,
        of_ok]

theorem smoothWalk_eq {source : Series α} (fits : source.length < wordCount) (period : Nat)
    (kind : Smoothing) (stop : Nat) :
    smoothWalk source.guarded period kind stop =
      of (Indicator.smoothWalk source period kind stop) := by
  rw [smoothWalk, Indicator.smoothWalk, GuardedSeries.length_guarded, windowedLength_eq fits,
    ok_bind, of_bind]
  by_cases whole : stop < Indicator.windowedLength source.length period
  · have some_window : 1 ≤ Indicator.windowedLength source.length period := by omega
    have oldest : Indicator.windowedLength source.length period - 1 <
        Indicator.windowedLength source.length period := by omega
    have positive := (Indicator.window_inside whole).2
    simp only [RangeError.check_eq_ok_iff.mpr whole, difference_eq some_window,
      windowMean_eq source (window_fits fits oldest), smoothDown_eq source positive, of_bind,
      ok_bind, pure_eq_ok, of_ok]
  · rw [RangeError.check_of_le (Nat.le_of_not_lt whole)]
    rfl

/-- A walk downwards from an index stays below it. -/
theorem smoothDown_below {source : Series α} {period : Nat} {kind : Smoothing} {stop index : Nat}
    {previous : α} {visits : List (Nat × α)}
    (run : Indicator.smoothDown source period kind stop index previous = .ok visits) :
    ∀ visit ∈ visits, visit.1 < index := by
  induction index generalizing previous visits with
  | zero =>
    cases run
    intro visit member
    cases member
  | succ i ih =>
    rw [Indicator.smoothDown] at run
    split at run
    · cases run
      intro visit member
      cases member
    · obtain ⟨x, -, rest⟩ := bind_eq_ok_iff.mp run
      obtain ⟨later, walked, visited⟩ := bind_eq_ok_iff.mp rest
      cases visited
      rw [List.forall_mem_cons]
      refine ⟨Nat.lt_succ_self i, ?_⟩
      intro visit member
      exact Nat.lt_succ_of_lt (ih walked visit member)

/-- Every index a walk visits starts a whole window. -/
theorem smoothWalk_inside {source : Series α} {period : Nat} {kind : Smoothing} {stop : Nat}
    {walk : Indicator.Walk α} (run : Indicator.smoothWalk source period kind stop = .ok walk) :
    ∀ visit ∈ walk.visits, visit.1 < Indicator.windowedLength source.length period := by
  obtain ⟨⟨⟩, checked, rest⟩ := bind_eq_ok_iff.mp run
  obtain ⟨seed, -, rest⟩ := bind_eq_ok_iff.mp rest
  obtain ⟨later, walked, visited⟩ := bind_eq_ok_iff.mp rest
  have whole := RangeError.check_eq_ok_iff.mp checked
  cases visited
  rw [Indicator.Walk.visits, List.forall_mem_cons]
  constructor
  · show Indicator.windowedLength source.length period - 1 < _
    omega
  · intro visit member
    have below := smoothDown_below walked visit member
    omega

theorem smoothedAt_eq {source : Series α} (fits : source.length < wordCount) (period : Nat)
    (kind : Smoothing) (index : Nat) :
    smoothedAt source.guarded period kind index =
      of (Indicator.smoothedAt source period kind index) := by
  rw [smoothedAt, Indicator.smoothedAt, smoothWalk_eq fits, of_bind]
  rfl

theorem smoothed_eq {source : Series α} (fits : source.length < wordCount) (period : Nat)
    (kind : Smoothing) :
    smoothed source.guarded period kind =
      Series.guarded <$> of (Indicator.smoothed source period kind) := by
  rw [smoothed, Indicator.smoothed, GuardedSeries.length_guarded, windowedLength_eq fits, ok_bind]
  split
  · rfl
  · rw [smoothWalk_eq fits]
    cases run : Indicator.smoothWalk source period kind 0 with
    | error e => rfl
    | ok walk =>
      have placed : forM walk.visits (fun visit =>
          require (visit.1 < Indicator.windowedLength source.length period)
            (.outside visit.1 (Indicator.windowedLength source.length period))) =
          (.ok ⟨⟩ : Guarded PUnit) :=
        forM_eq_ok_iff.mpr fun visit member =>
          require_eq (smoothWalk_inside run visit member) _
      rw [of_ok, ok_bind, placed]
      rfl

end Walks

section TrueRanges

variable {α : Type} [Arithmetic α]

def trueRanges (high low close : GuardedSeries α) : Guarded (GuardedSeries α) := do
  let previousClose ← close.skip 1
  return .checked previousClose.length fun i => do
    return Indicator.trueRange (← high.read i) (← low.read i) (← previousClose.read i)

def atrAt (high low close : GuardedSeries α) (period index : Nat) : Guarded α := do
  smoothedAt (← trueRanges high low close) period .wilder index

def atr (high low close : GuardedSeries α) (period : Nat) : Guarded (GuardedSeries α) := do
  smoothed (← trueRanges high low close) period .wilder

variable (high low : Series α) {close : Series α}

theorem trueRanges_eq (fits : close.length < wordCount) :
    trueRanges high.guarded low.guarded close.guarded =
      .ok (Indicator.trueRanges high low close).guarded := by
  rw [trueRanges, GuardedSeries.skip_eq fits, ok_bind]
  refine congrArg Except.ok (GuardedSeries.checked_eq fun i _ => ?_)
  simp only [GuardedSeries.read_guarded, of_bind, pure_eq_ok, of_ok]

theorem trueRanges_fit (fits : close.length < wordCount) :
    (Indicator.trueRanges high low close).length < wordCount :=
  Nat.lt_of_le_of_lt (Nat.sub_le close.length 1) fits

theorem atrAt_eq (fits : close.length < wordCount) (period index : Nat) :
    atrAt high.guarded low.guarded close.guarded period index =
      of (Indicator.atrAt high low close period index) := by
  rw [atrAt, trueRanges_eq high low fits, ok_bind]
  exact smoothedAt_eq (trueRanges_fit high low fits) period .wilder index

theorem atr_eq (fits : close.length < wordCount) (period : Nat) :
    atr high.guarded low.guarded close.guarded period =
      Series.guarded <$> of (Indicator.atr high low close period) := by
  rw [atr, trueRanges_eq high low fits, ok_bind]
  exact smoothed_eq (trueRanges_fit high low fits) period .wilder

end TrueRanges

section Bands

def windowDeviation (source : GuardedSeries Float) (index period : Nat) (mean : Float) :
    Guarded Float := do
  let squares ← (← span index period).foldlM
    (fun sum i => do
      let x ← source.read i
      return sum + (x - mean) * (x - mean))
    (0 : Float)
  return (squares / Float.ofNat period).sqrt

def band (source : GuardedSeries Float) (period : Nat) (multiplier : Float) (output : Band)
    (index : Nat) : Guarded Float := do
  let middle ← windowMean source index period
  match output with
  | .middle => return middle
  | .upper => return middle + multiplier * (← windowDeviation source index period middle)
  | .lower => return middle - multiplier * (← windowDeviation source index period middle)

def bollingerAt (source : GuardedSeries Float) (period : Nat) (multiplier : Float) (output : Band)
    (index : Nat) : Guarded Float := do
  of (RangeError.check index (← windowedLength source.length period))
  band source period multiplier output index

def bollinger (source : GuardedSeries Float) (period : Nat) (multiplier : Float) (output : Band) :
    Guarded (GuardedSeries Float) := do
  let length ← windowedLength source.length period
  GuardedSeries.collect length (band source period multiplier output)

theorem windowDeviation_eq (source : Series Float) {index period : Nat}
    (fits : index + period < wordCount) (mean : Float) :
    windowDeviation source.guarded index period mean =
      of (Indicator.windowDeviation source index period mean) := by
  have step : ∀ (sum : Float) (i : Nat),
      (do
        let x ← source.guarded.read i
        return sum + (x - mean) * (x - mean) : Guarded Float) =
        of (do
          let x ← source.read i
          return sum + (x - mean) * (x - mean)) := by
    intro sum i
    simp only [GuardedSeries.read_guarded, of_bind, pure_eq_ok, of_ok]
  rw [windowDeviation, Indicator.windowDeviation, span_eq fits, ok_bind, of_bind]
  rw [foldlM_eq_of fun sum i _ => step sum i]
  rfl

theorem band_eq (source : Series Float) {index period : Nat} (fits : index + period < wordCount)
    (multiplier : Float) (output : Band) :
    band source.guarded period multiplier output index =
      of (Indicator.band source period multiplier output index) := by
  cases output <;>
    simp only [band, Indicator.band, windowMean_eq source fits, windowDeviation_eq source fits,
      of_bind, pure_eq_ok, of_ok]

theorem bollingerAt_eq {source : Series Float} (fits : source.length < wordCount) (period : Nat)
    (multiplier : Float) (output : Band) (index : Nat) :
    bollingerAt source.guarded period multiplier output index =
      of (Indicator.bollingerAt source period multiplier output index) :=
  check_windowed fits period index fun whole =>
    band_eq source (window_fits fits whole) multiplier output

theorem bollinger_eq {source : Series Float} (fits : source.length < wordCount) (period : Nat)
    (multiplier : Float) (output : Band) :
    bollinger source.guarded period multiplier output =
      Series.guarded <$> of (Indicator.bollinger source period multiplier output) := by
  rw [bollinger, GuardedSeries.length_guarded, windowedLength_eq fits, ok_bind]
  exact GuardedSeries.collect_eq fun i whole =>
    band_eq source (window_fits fits whole) multiplier output

end Bands

section Convergence

variable {α : Type} [Arithmetic α]

def emaAt (source : GuardedSeries α) (period index : Nat) : Guarded α :=
  smoothedAt source period .exponential index

def ema (source : GuardedSeries α) (period : Nat) : Guarded (GuardedSeries α) :=
  smoothed source period .exponential

def macdLine (source : GuardedSeries α) (fast slow : Nat) : Guarded (GuardedSeries α) := do
  let fastAverage ← ema source fast
  let slowAverage ← ema source slow
  return .checked (min fastAverage.length slowAverage.length) fun i => do
    return (← fastAverage.read i) - (← slowAverage.read i)

def macdAt (source : GuardedSeries α) (fast slow signal : Nat) (output : MacdOutput)
    (index : Nat) : Guarded α := do
  let line ← macdLine source fast slow
  match output with
  | .line => line.read index
  | .signal => emaAt line signal index
  | .histogram =>
    let signalValue ← emaAt line signal index
    return (← line.read index) - signalValue

def macd (source : GuardedSeries α) (fast slow signal : Nat) (output : MacdOutput) :
    Guarded (GuardedSeries α) := do
  let line ← macdLine source fast slow
  match output with
  | .line => return (Series.ofList (← line.toList)).guarded
  | .signal => ema line signal
  | .histogram =>
    let signalLine ← ema line signal
    GuardedSeries.collect signalLine.length fun i => do
      return (← line.read i) - (← signalLine.read i)

theorem emaAt_eq {source : Series α} (fits : source.length < wordCount) (period index : Nat) :
    emaAt source.guarded period index = of (Indicator.emaAt source period index) :=
  smoothedAt_eq fits period .exponential index

theorem ema_eq {source : Series α} (fits : source.length < wordCount) (period : Nat) :
    ema source.guarded period = Series.guarded <$> of (Indicator.ema source period) :=
  smoothed_eq fits period .exponential

/-- The line is made of what two averages give, so it has a length to go on from. -/
theorem macdLine_eq {xs : List α} (fits : xs.length < wordCount) (fast slow : Nat) :
    macdLine (Series.ofList xs).guarded fast slow =
      .ok (Series.ofList (Indicator.lineOf fast slow xs)).guarded := by
  have source : (Series.ofList xs).length < wordCount := by rwa [Series.length_ofList]
  have line := Indicator.macdLine_ofList xs fast slow
  simp only [Indicator.macdLine, Indicator.ema_ofList, ok_bind, pure_eq_ok, Except.ok.injEq] at line
  simp only [macdLine, ema_eq source, Indicator.ema_ofList, of_ok, map_ok, ok_bind, pure_eq_ok,
    GuardedSeries.length_guarded, GuardedSeries.read_guarded]
  rw [← line]
  refine congrArg Except.ok (GuardedSeries.checked_eq fun i _ => ?_)
  simp only [of_bind, of_ok]

theorem lineOf_fits {xs : List α} (fits : xs.length < wordCount) (fast slow : Nat) :
    (Series.ofList (Indicator.lineOf fast slow xs)).length < wordCount := by
  have shorter := Indicator.windowedLength_le xs.length fast
  rw [Series.length_ofList, Indicator.length_lineOf]
  omega

theorem macdAt_eq {xs : List α} (fits : xs.length < wordCount) (fast slow signal : Nat)
    (output : MacdOutput) (index : Nat) :
    macdAt (Series.ofList xs).guarded fast slow signal output index =
      of (Indicator.macdAt (Series.ofList xs) fast slow signal output index) := by
  have line := lineOf_fits fits fast slow
  rw [macdAt, Indicator.macdAt, macdLine_eq fits, Indicator.macdLine_ofList, ok_bind, ok_bind]
  cases output with
  | line => rfl
  | signal => exact emaAt_eq line signal index
  | histogram =>
    simp only [emaAt_eq line, GuardedSeries.read_guarded, of_bind, pure_eq_ok, of_ok]

theorem macd_eq {xs : List α} (fits : xs.length < wordCount) (fast slow signal : Nat)
    (output : MacdOutput) :
    macd (Series.ofList xs).guarded fast slow signal output =
      Series.guarded <$> of (Indicator.macd (Series.ofList xs) fast slow signal output) := by
  have line := lineOf_fits fits fast slow
  rw [macd, Indicator.macd, macdLine_eq fits, Indicator.macdLine_ofList, ok_bind, ok_bind]
  cases output with
  | line =>
    simp only [GuardedSeries.toList_eq, Series.toList_ofList, of_ok, ok_bind, pure_eq_ok, map_ok]
  | signal => exact ema_eq line signal
  | histogram =>
    simp only [ema_eq line, Indicator.ema_ofList, of_ok, map_ok, ok_bind]
    refine GuardedSeries.collect_eq fun i _ => ?_
    simp only [GuardedSeries.read_guarded, of_bind, pure_eq_ok, of_ok]

end Convergence

section Oscillators

def windowExtremes (high low : GuardedSeries Float) (index period : Nat) :
    Guarded (Float × Float) := do
  (← span index period).foldlM
    (fun (highest, lowest) i => do
      return (larger highest (← high.read i), smaller lowest (← low.read i)))
    (-1.0 / 0.0, 1.0 / 0.0)

def percentK (high low close : GuardedSeries Float) (period : Nat) :
    Guarded (GuardedSeries Float) := do
  let length ← windowedLength close.length period
  return .checked length fun i => do
    let (highest, lowest) ← windowExtremes high low i period
    let range := highest - lowest
    if range == 0.0 then return 50.0
    else return 100.0 * ((← close.read i) - lowest) / range

def stochasticAt (high low close : GuardedSeries Float) (kPeriod dPeriod : Nat)
    (output : StochasticOutput) (index : Nat) : Guarded Float := do
  let k ← percentK high low close kPeriod
  match output with
  | .k => k.read index
  | .d => smaAt k dPeriod index

def stochastic (high low close : GuardedSeries Float) (kPeriod dPeriod : Nat)
    (output : StochasticOutput) : Guarded (GuardedSeries Float) := do
  let k ← percentK high low close kPeriod
  match output with
  | .k => return (Series.ofList (← k.toList)).guarded
  | .d => sma k dPeriod

variable (high low : Series Float)

theorem windowExtremes_eq {index period : Nat} (fits : index + period < wordCount) :
    windowExtremes high.guarded low.guarded index period =
      of (Indicator.windowExtremes high low index period) := by
  rw [windowExtremes, Indicator.windowExtremes, span_eq fits, ok_bind]
  refine foldlM_eq_of (fun extremes i _ => ?_) _
  simp only [GuardedSeries.read_guarded, of_bind, pure_eq_ok, of_ok]

variable {close : Series Float}

theorem percentK_eq (fits : close.length < wordCount) (period : Nat) :
    percentK high.guarded low.guarded close.guarded period =
      .ok (Indicator.percentK high low close period).guarded := by
  rw [percentK, GuardedSeries.length_guarded, windowedLength_eq fits, ok_bind]
  refine congrArg Except.ok (GuardedSeries.checked_eq fun i whole => ?_)
  simp only [windowExtremes_eq high low (window_fits fits whole), GuardedSeries.read_guarded,
    of_bind, pure_eq_ok, of_ok, apply_ite of]

theorem percentK_fits (fits : close.length < wordCount) (period : Nat) :
    (Indicator.percentK high low close period).length < wordCount :=
  Nat.lt_of_le_of_lt (Indicator.windowedLength_le close.length period) fits

theorem stochasticAt_eq (fits : close.length < wordCount) (kPeriod dPeriod : Nat)
    (output : StochasticOutput) (index : Nat) :
    stochasticAt high.guarded low.guarded close.guarded kPeriod dPeriod output index =
      of (Indicator.stochasticAt high low close kPeriod dPeriod output index) := by
  simp only [stochasticAt, Indicator.stochasticAt, percentK_eq high low fits, ok_bind]
  cases output with
  | k => rfl
  | d => exact smaAt_eq (percentK_fits high low fits kPeriod) dPeriod index

theorem stochastic_eq (fits : close.length < wordCount) (kPeriod dPeriod : Nat)
    (output : StochasticOutput) :
    stochastic high.guarded low.guarded close.guarded kPeriod dPeriod output =
      Series.guarded <$> of (Indicator.stochastic high low close kPeriod dPeriod output) := by
  simp only [stochastic, Indicator.stochastic, percentK_eq high low fits, ok_bind]
  cases output with
  | k =>
    simp only [GuardedSeries.toList_eq]
    cases (Indicator.percentK high low close kPeriod).toList <;> rfl
  | d => exact sma_eq (percentK_fits high low fits kPeriod) dPeriod

end Oscillators

end TradingRules.Guarded
