import TradingRules.Proofs.Guarded.Rules
import TradingRules.Proofs.Accounting

/-!
# Guarded backtests

The run of a backtest over the bars of an asset and the figures made of its trades, with every
index, count and total guarded. Counts and totals stay within the number of bars: a bar is skipped
once at most, and the stretches for which positions are held do not overlap. So a backtest of an
asset that fits a machine word meets no breach, and what it gives is what the backtest without
guards gives.
-/

namespace TradingRules

section Holdings

theorem foldl_holdingBars (trades : List (Trade Float)) (start : Nat) :
    (trades.map Trade.holdingBars).foldl (· + ·) start = start + heldBars trades := by
  induction trades generalizing start with
  | nil => rfl
  | cons t rest ih => rw [List.map_cons, List.foldl_cons, ih, heldBars, Nat.add_assoc]

/-- A trade is held for one bar at least, so there are no more trades than bars held. -/
theorem length_le_heldBars {trades : List (Trade Float)}
    (ordered : ∀ t ∈ trades, t.exitIndex < t.entryIndex) : trades.length ≤ heldBars trades := by
  induction trades with
  | nil => exact Nat.le_refl 0
  | cons t rest ih =>
    obtain ⟨first, others⟩ := List.forall_mem_cons.mp ordered
    have held := Trade.holdingBars_of_le (Nat.le_of_lt first)
    have later := ih others
    rw [List.length_cons, heldBars]
    omega

end Holdings

namespace Guarded

section Figures

/-- What is counted and added up over a list of trades. -/
structure Tally where
  won : Nat
  lost : Nat
  even : Nat
  held : Nat

def Tally.count (tally : Tally) (t : Trade Float) : Guarded Tally :=
  if t.isWon then do return { tally with won := ← sum tally.won 1 }
  else if t.isLost then do return { tally with lost := ← sum tally.lost 1 }
  else do return { tally with even := ← sum tally.even 1 }

def Tally.add (tally : Tally) (t : Trade Float) : Guarded Tally := do
  let counted ← tally.count t
  return { counted with held := ← sum counted.held (← difference t.entryIndex t.exitIndex) }

/-- The figures of a list of trades, with those that come from counts made of guarded ones. -/
def metrics (trades : List (Trade Float)) : Guarded (Metrics Float) := do
  let tally ← trades.foldlM Tally.add ⟨0, 0, 0, 0⟩
  return { Metrics.ofTrades trades with
    tradesWon := tally.won
    tradesLost := tally.lost
    tradesEven := tally.even
    winRate := Metrics.perCount (Arithmetic.count tally.won) trades.length
    averageWin := Metrics.perCount (Metrics.sum (Metrics.wins trades)) tally.won
    averageLoss := Metrics.perCount (Metrics.sum (Metrics.losses trades)) tally.lost
    averageHolding := Metrics.perCount (Arithmetic.count tally.held) trades.length }

/-- The number of trades counted. -/
def Tally.size (tally : Tally) : Nat :=
  tally.won + tally.lost + tally.even

/-- The counts a tally goes on to over a list of trades. -/
def Tally.after (tally : Tally) (trades : List (Trade Float)) : Tally where
  won := tally.won + trades.countP Trade.isWon
  lost := tally.lost + trades.countP Trade.isLost
  even := tally.even + trades.countP fun t => !t.isWon && !t.isLost
  held := tally.held + heldBars trades

/-- A trade is won, lost or neither. -/
theorem Tally.size_after (tally : Tally) (t : Trade Float) :
    (tally.after [t]).size = tally.size + 1 := by
  have once := t.counted_once
  simp only [size, after, List.countP_singleton]
  omega

theorem Tally.count_eq {tally : Tally} (room : tally.size + 1 < wordCount) (t : Trade Float) :
    tally.count t = .ok { tally.after [t] with held := tally.held } := by
  unfold size at room
  have won : tally.won + 1 < wordCount := by omega
  have lost : tally.lost + 1 < wordCount := by omega
  have even : tally.even + 1 < wordCount := by omega
  simp only [count, after, sum_eq won, sum_eq lost, sum_eq even]
  rcases t.outcome_cases with ⟨gain, loss⟩ | ⟨gain, loss⟩ | ⟨gain, loss⟩ <;> simp [gain, loss]

theorem Tally.add_eq {tally : Tally} {t : Trade Float} (ordered : t.exitIndex ≤ t.entryIndex)
    (room : tally.size + 1 < wordCount)
    (total : tally.held + t.holdingBars < wordCount) :
    tally.add t = .ok (tally.after [t]) := by
  have held := Trade.holdingBars_of_le ordered
  rw [held] at total
  simp only [add, count_eq room, difference_eq ordered, sum_eq total, ok_bind, pure_eq_ok]
  simp only [after, heldBars, held, Nat.add_zero]

theorem Tally.after_cons (tally : Tally) (t : Trade Float) (rest : List (Trade Float)) :
    tally.after (t :: rest) = (tally.after [t]).after rest := by
  simp only [after, heldBars, List.countP_cons, List.countP_nil, mk.injEq]
  omega

/-- A tally has room for trades that are held one after the other. -/
theorem foldlM_tally {trades : List (Trade Float)} (tally : Tally)
    (ordered : ∀ t ∈ trades, t.exitIndex ≤ t.entryIndex)
    (room : tally.size + trades.length < wordCount)
    (total : tally.held + heldBars trades < wordCount) :
    trades.foldlM Tally.add tally = .ok (tally.after trades) := by
  induction trades generalizing tally with
  | nil => rfl
  | cons t rest ih =>
    obtain ⟨first, others⟩ := List.forall_mem_cons.mp ordered
    have next := tally.size_after t
    have held : (tally.after [t]).held = tally.held + t.holdingBars := rfl
    rw [List.length_cons] at room
    rw [heldBars] at total
    rw [List.foldlM_cons, Tally.add_eq first (by omega) (by omega), ok_bind,
      Tally.after_cons tally t rest]
    exact ih (tally.after [t]) others (by omega) (by omega)

/-- Where trades are held one after the other for as many bars as fit a machine word, their figures
meet no breach. -/
theorem metrics_eq {trades : List (Trade Float)}
    (ordered : ∀ t ∈ trades, t.exitIndex < t.entryIndex) (total : heldBars trades < wordCount) :
    metrics trades = .ok (Metrics.ofTrades trades) := by
  have room : (Tally.mk 0 0 0 0).size + trades.length < wordCount := by
    have shorter := length_le_heldBars ordered
    simp only [Tally.size]
    omega
  have start : (Tally.mk 0 0 0 0).held + heldBars trades < wordCount := by rwa [Nat.zero_add]
  have tally := foldlM_tally ⟨0, 0, 0, 0⟩ (fun t member => Nat.le_of_lt (ordered t member)) room
    start
  have won : (Metrics.wins trades).length = trades.countP Trade.isWon := by
    rw [Metrics.wins, List.length_map, List.countP_eq_length_filter]
  have lost : (Metrics.losses trades).length = trades.countP Trade.isLost := by
    rw [Metrics.losses, List.length_map, List.countP_eq_length_filter]
  have held : (trades.map Trade.holdingBars).foldl (· + ·) 0 % wordCount = heldBars trades := by
    rw [foldl_holdingBars, Nat.zero_add]
    exact Nat.mod_eq_of_lt total
  simp only [metrics, tally, ok_bind, pure_eq_ok, Tally.after, Nat.zero_add, Metrics.ofTrades, won,
    lost, held]

end Figures

section Runs

/-- How a run stands between two bars: without a position, with one or with one just closed. -/
inductive Phase where
  | flat
  | held (p : Position)
  | closed (t : RoundTrip)

structure Progress where
  phase : Phase
  trades : List RoundTrip
  skipped : Nat

/-- What a run leaves behind if it ends here. -/
def Progress.journal (run : Progress) : Journal :=
  match run.phase with
  | .flat => ⟨run.trades, none, run.skipped⟩
  | .held p => ⟨run.trades, some p, run.skipped⟩
  | .closed t => ⟨run.trades ++ [t], none, run.skipped⟩

variable (t : GuardedTape) (a : Asset) (s : Strategy)

def stepFlat (i : Nat) (trades : List RoundTrip) (skipped : Nat) : Guarded Progress := do
  match ← attempt (enter t i a s) with
  | .ok (some p) => return ⟨.held p, trades, skipped⟩
  | .ok none => return ⟨.flat, trades, skipped⟩
  | .error _ => return ⟨.flat, trades, ← sum skipped 1⟩

def stepHeld (i : Nat) (p : Position) (trades : List RoundTrip) (skipped : Nat) :
    Guarded Progress := do
  match ← attempt (leave t i s) with
  | .ok (some price) => return ⟨.closed (← close i a p price), trades, skipped⟩
  | .ok none => return ⟨.held p, trades, skipped⟩
  | .error _ => return ⟨.held p, trades, ← sum skipped 1⟩

/-- One bar, which must be one of the asset. A trade closed at the bar before is recorded first. -/
def stepBar (i : Nat) (run : Progress) : Guarded Progress := do
  of (RangeError.check i a.length)
  match run.phase with
  | .flat => stepFlat t a s i run.trades run.skipped
  | .held p => stepHeld t a s i p run.trades run.skipped
  | .closed trade => stepFlat t a s i (run.trades ++ [trade]) run.skipped

/-- The bars below an index, from the oldest on. -/
def runBelow : Nat → Progress → Guarded Progress
  | 0, run => .ok run
  | i + 1, run => do runBelow i (← stepBar t a s i run)

/-- A backtest with every guard. -/
def backtest : Except (Halt EvaluationFault) Ledger :=
  let ledger : Guarded Ledger := do
    let store ← GuardedStore.build a s.methods
    let final ← runBelow (store.tape a) a s a.length ⟨.flat, [], 0⟩
    let journal := final.journal
    return ⟨a.symbol, a.length, journal, ← metrics (journal.trades.map RoundTrip.toTrade)⟩
  ledger.mapError fun
    | .error cause => .error ⟨a.symbol, cause⟩
    | .breach b => .breach b

end Runs

end Guarded

/-- What comes of a journal if a replay goes on from it at the bars below an index. -/
def Journal.completed (j : Journal) (a : Asset) (s : Strategy) (n : Nat) : Journal where
  trades := j.trades ++ (a.replayBelow s n j.position).trades
  position := (a.replayBelow s n j.position).position
  skipped := j.skipped + (a.replayBelow s n j.position).skipped

theorem Journal.completed_zero (j : Journal) (a : Asset) (s : Strategy) :
    j.completed a s 0 = j := by
  simp [completed, Asset.replayBelow_zero]

theorem Journal.completed_empty (a : Asset) (s : Strategy) (n : Nat) :
    Journal.completed ⟨[], none, 0⟩ a s n = a.replayBelow s n none := by
  simp [completed]

namespace Guarded

variable {a : Asset} {s : Strategy} {i : Nat}

/-- A step at a bar leaves the same journal to complete at the newer bars, and skips one bar at
most. -/
structure Advances (a : Asset) (s : Strategy) (i : Nat) (start next : Journal) : Prop where
  completed : next.completed a s i = start.completed a s (i + 1)
  skipped : next.skipped ≤ start.skipped + 1

theorem stepFlat_advances (inside : i < a.history.length) (fits : i + 1 < wordCount)
    (trades : List RoundTrip) {skipped : Nat} (room : skipped + 1 < wordCount) :
    ∃ next, stepFlat a.tape.guarded a s i trades skipped = .ok next ∧
      Advances a s i ⟨trades, none, skipped⟩ next.journal := by
  have replayed : a.replayBelow s (i + 1) none =
      s.replay a.tape (⟨i, a.history[i].time⟩ :: a.barsBelow i) none := by
    rw [Asset.replayBelow, a.barsBelow_succ inside]
  rw [Strategy.replay] at replayed
  simp only [stepFlat, enter_eq fits inside, attempt_of, ok_bind]
  cases decision : s.enter a.tape ⟨i, a.history[i].time⟩ with
  | ok opened =>
    rw [decision] at replayed
    cases opened with
    | none =>
      refine ⟨⟨.flat, trades, skipped⟩, rfl, ?_, Nat.le_succ skipped⟩
      simp only [Journal.completed, replayed]
      rfl
    | some p =>
      refine ⟨⟨.held p, trades, skipped⟩, rfl, ?_, Nat.le_succ skipped⟩
      simp only [Journal.completed, replayed]
      rfl
  | error e =>
    rw [decision] at replayed
    refine ⟨⟨.flat, trades, skipped + 1⟩, ?_, ?_, Nat.le_refl (skipped + 1)⟩
    · rw [sum_eq room]
      rfl
    · simp only [Journal.completed, replayed]
      exact congrArg (Journal.mk _ _) (Nat.add_right_comm skipped 1 _)

theorem stepHeld_advances (inside : i < a.history.length) (fits : i + 1 < wordCount)
    (p : Position) (trades : List RoundTrip) {skipped : Nat} (room : skipped + 1 < wordCount) :
    ∃ next, stepHeld a.tape.guarded a s i p trades skipped = .ok next ∧
      Advances a s i ⟨trades, some p, skipped⟩ next.journal := by
  have replayed : a.replayBelow s (i + 1) (some p) =
      s.replay a.tape (⟨i, a.history[i].time⟩ :: a.barsBelow i) (some p) := by
    rw [Asset.replayBelow, a.barsBelow_succ inside]
  rw [Strategy.replay] at replayed
  simp only [stepHeld, leave_eq fits a.history[i].time, close_eq inside, attempt_of, ok_bind]
  cases decision : s.leave a.tape ⟨i, a.history[i].time⟩ with
  | ok price =>
    rw [decision] at replayed
    cases price with
    | none =>
      refine ⟨⟨.held p, trades, skipped⟩, rfl, ?_, Nat.le_succ skipped⟩
      simp only [Journal.completed, replayed]
      rfl
    | some price =>
      refine ⟨⟨.closed (p.close ⟨i, a.history[i].time⟩ price), trades, skipped⟩, rfl, ?_,
        Nat.le_succ skipped⟩
      simp only [Journal.completed, replayed]
      exact congrArg (Journal.mk · _ _) (List.append_assoc trades [_] _)
  | error e =>
    rw [decision] at replayed
    refine ⟨⟨.held p, trades, skipped + 1⟩, ?_, ?_, Nat.le_refl (skipped + 1)⟩
    · rw [sum_eq room]
      rfl
    · simp only [Journal.completed, replayed]
      exact congrArg (Journal.mk _ _) (Nat.add_right_comm skipped 1 _)

theorem stepBar_advances (inside : i < a.history.length) (fits : i + 1 < wordCount)
    (run : Progress) (room : run.journal.skipped + 1 < wordCount) :
    ∃ next, stepBar a.tape.guarded a s i run = .ok next ∧
      Advances a s i run.journal next.journal := by
  have present : RangeError.check i a.length = .ok () := RangeError.check_eq_ok_iff.mpr inside
  simp only [stepBar, present, of_ok, ok_bind]
  obtain ⟨phase, trades, skipped⟩ := run
  cases phase with
  | flat => exact stepFlat_advances inside fits trades room
  | held p => exact stepHeld_advances inside fits p trades room
  | closed trade => exact stepFlat_advances inside fits (trades ++ [trade]) room

/-- A run below an index leaves what a replay completes from where it stands. -/
theorem runBelow_eq {n : Nat} (inside : n ≤ a.history.length) (run : Progress)
    (room : run.journal.skipped + n < wordCount) :
    ∃ final, runBelow a.tape.guarded a s n run = .ok final ∧
      final.journal = run.journal.completed a s n := by
  induction n generalizing run with
  | zero => exact ⟨run, rfl, (run.journal.completed_zero a s).symm⟩
  | succ i ih =>
    have older : i < a.history.length := inside
    have fits : i + 1 < wordCount := by omega
    obtain ⟨next, step, advances⟩ := stepBar_advances (s := s) older fits run (by omega)
    have skipped := advances.skipped
    obtain ⟨final, rest, journal⟩ := ih (Nat.le_of_lt older) next (by omega)
    refine ⟨final, ?_, ?_⟩
    · rw [runBelow, step, ok_bind, rest]
    · rw [journal, advances.completed]

end Guarded

namespace Asset

/-- A backtest always has a result. With every index, count and total checked to be a machine word,
every window checked to lie inside its base, the operands of every difference checked to have one
length and every bar checked to be there, it comes to the same result without a breach: whatever
rules a strategy has and whatever numbers stand in them. The only bound is that the length of the
history is a machine word. -/
theorem backtest_never_stops (a : Asset) (s : Strategy) (fits : a.length < wordCount) :
    ∃ ledger, a.backtest s = .ok ledger ∧ Guarded.backtest a s = .ok ledger := by
  have whole : a.length ≤ a.history.length := Nat.le_refl _
  have room : 0 + a.length < wordCount := by rwa [Nat.zero_add]
  obtain ⟨store, built, same⟩ := Store.build_eq_ok a s.methods
  obtain ⟨final, run, journal⟩ :=
    Guarded.runBelow_eq (s := s) whole ⟨.flat, [], 0⟩ room
  have replayed : final.journal = a.replayBelow s a.length none := by
    rw [journal]
    exact Journal.completed_empty a s a.length
  have held := replayBelow_consecutive (s := s) whole
  have ordered : ∀ t ∈ final.journal.trades.map RoundTrip.toTrade, t.exitIndex < t.entryIndex := by
    rw [List.forall_mem_map, replayed]
    exact held.ordered
  have total : heldBars (final.journal.trades.map RoundTrip.toTrade) < wordCount := by
    have together := held.held
    rw [replayed]
    omega
  refine ⟨.ofJournal a final.journal, ?_, ?_⟩
  · rw [a.backtest_eq, replayed, replayBelow, a.bars_eq]
  · simp only [Guarded.backtest, GuardedStore.build_eq fits, built, Guarded.of_ok, map_ok, ok_bind,
      GuardedStore.tape_eq fits, same, run, Guarded.metrics_eq ordered total, pure_eq_ok]
    rfl

/-- Two bars, periods from nothing to the largest word, conditions without members and no way out:
an average over nothing against one over more bars than any history has. The entry holds at both
bars, and both are skipped for want of a price. -/
theorem backtest_never_stops_extreme :
    let first : Quote := ⟨⟨2024, 1, 1, 0, 0, 0, by decide, by decide, by decide, by decide,
      by decide, by decide⟩, 10.0, 12.0, 9.0, 11.0, 1000⟩
    let second : Quote := ⟨⟨2024, 1, 2, 0, 0, 0, by decide, by decide, by decide, by decide,
      by decide, by decide⟩, 11.0, 14.0, 11.0, 13.0, 2000⟩
    let price : Method := .absDiff (.sma 18446744073709551615 (.ema 0 (.field .close))) (.atr 1)
    let entry : Filter := .any [.all [], .crossAbove price (.field .close), .any []]
    let s : Strategy := ⟨"no way out", "", entry, price, []⟩
    let a : Asset := ofQuotes "TEST" [first, second]
    a.length < wordCount ∧
      ∃ ledger, a.backtest s = .ok ledger ∧ Guarded.backtest a s = .ok ledger ∧
        ledger.journal = ⟨[], none, 2⟩ := by
  intro first second price entry s a
  have fits : a.length < wordCount := by decide
  obtain ⟨ledger, ran, guarded⟩ := backtest_never_stops a s fits
  obtain rfl := Except.ok.inj ((backtest_eq a s).symm.trans ran)
  exact ⟨fits, _, ran, guarded, by decide +kernel⟩

end Asset

end TradingRules
