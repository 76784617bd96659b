import TradingRules.Proofs.NoLookAhead
import TradingRules.Proofs.Screens

/-!
# The newest bar

A screen looks at the newest bar of an asset and at nothing else. A backtest comes to it last, with
what all the older bars have made of the position. Where they leave none, the one decision still to
be made is the answer of the screen together with the price; where they leave one, what the screen
says does not matter.
-/

namespace TradingRules

namespace Asset

/-- An asset as it was one bar ago. -/
def older (a : Asset) : Asset where
  symbol := a.symbol
  quotes := a.history.tail.toArray
  ordered := a.ordered.tail

variable {a : Asset} {s : Strategy}

theorem history_older (a : Asset) : a.older.history = a.history.tail := rfl

theorem exists_newest (nonempty : 0 < a.history.length) :
    ∃ newest, a.history = [newest] ++ a.older.history := by
  rw [history_older]
  cases quotes : a.history with
  | nil =>
    rw [quotes] at nonempty
    exact absurd nonempty (Nat.lt_irrefl 0)
  | cons newest rest => exact ⟨newest, rfl⟩

/-- A screen of one asset lists it as passed if its newest bar says so. -/
theorem mem_passed_iff (f : Filter) :
    a.symbol ∈ (screen [a] f).passed ↔ a.latest f = .ok true := by
  rw [(screen_classifies [a] f).passed]
  by_cases holds : a.latest f = .ok true <;> simp [holds]

theorem mem_ineligible_iff (f : Filter) :
    (∃ e, (a.symbol, e) ∈ (screen [a] f).ineligible) ↔ Fails (a.latest f) := by
  rw [(screen_classifies [a] f).ineligible]
  cases verdict : a.latest f with
  | ok holds => simp [unanswered?_of_ok verdict]
  | error e => simp [unanswered?_of_error verdict]

theorem latest_eq_holds (nonempty : 0 < a.length) (f : Filter) :
    a.latest f = (⟨a, 0, [], nonempty⟩ : Snapshot).holds f := by
  rw [a.latest_eq, a.snapshot_of_lt nonempty]
  rfl

/-- A strategy enters at the newest bar if a screen by its entry filter passes the asset and there
is a price. -/
theorem enters_newest_iff (nonempty : 0 < a.length) :
    a.At s.Enters 0 ↔
      a.symbol ∈ (screen [a] s.entry).passed ∧ Succeeds (s.price.valueAt a 0) := by
  rw [a.at_iff nonempty, mem_passed_iff, latest_eq_holds nonempty]
  exact Iff.rfl

theorem entryFails_newest_iff (nonempty : 0 < a.length) :
    a.At s.EntryFails 0 ↔
      (∃ e, (a.symbol, e) ∈ (screen [a] s.entry).ineligible) ∨
        a.symbol ∈ (screen [a] s.entry).passed ∧ Fails (s.price.valueAt a 0) := by
  rw [a.at_iff nonempty, mem_passed_iff, mem_ineligible_iff, latest_eq_holds nonempty]
  exact Iff.rfl

/-- What the newest bar adds without a position: an entry, nothing or a skip. -/
theorem replayBelow_one_none (nonempty : 0 < a.history.length) :
    (a.replayBelow s 1 none).trades = [] ∧
      ((∃ p ∈ (a.replayBelow s 1 none).position, p.entryIndex = 0) ↔ a.At s.Enters 0) ∧
      ((a.replayBelow s 1 none).skipped = 1 ↔ a.At s.EntryFails 0) := by
  rcases replayBelow_succ_none (s := s) nonempty with
    ⟨price, enters, sound, -, step⟩ | ⟨stays, sound, step⟩ | ⟨stays, fails, step⟩
  · simp [step, replayBelow_zero, enters, sound]
  · simp [step, replayBelow_zero, stays, sound]
  · simp [step, replayBelow_zero, stays, fails]

/-- A position held into the newest bar is the one it is closed or kept as. -/
theorem replayBelow_one_some (nonempty : 0 < a.history.length) (p : Position) :
    (∀ t ∈ (a.replayBelow s 1 (some p)).trades, t.entryIndex = p.entryIndex) ∧
      ∀ q ∈ (a.replayBelow s 1 (some p)).position, q.entryIndex = p.entryIndex := by
  rcases replayBelow_succ_some (s := s) nonempty p with
    ⟨price, -, -, -, step⟩ | ⟨-, -, step⟩ | ⟨-, -, step⟩
  · simp [step, replayBelow_zero, Position.close]
  · simp [step, replayBelow_zero]
  · simp [step, replayBelow_zero]

/-- A run is that of the older bars, seen from the newest one, and what the newest one adds. -/
theorem replayBelow_newest (nonempty : 0 < a.history.length) :
    a.replayBelow s a.length none =
      let before := a.older.replayBelow s a.older.length none
      before.join (a.replayBelow s 1 (before.position.map (Position.shift · 1))) 1 := by
  obtain ⟨newest, longer⟩ := exists_newest nonempty
  exact replayBelow_extends longer

/-- What a strategy does at the newest bar is settled by the run that ends before it and by a
screen. If that run leaves no position, the whole run opens one there just when a screen by the
entry filter passes the asset and there is a price; it skips the bar just when the screen has no
answer, or passes the asset and there is no price; and its trades are those of the older bars. If
that run leaves a position, nothing is opened at the newest bar. -/
theorem backtest_agrees_with_screen (a : Asset) (s : Strategy) (nonempty : 0 < a.length) :
    ∃ before after, a.older.backtest s = .ok before ∧ a.backtest s = .ok after ∧
      (before.journal.position = none →
        ((∃ p ∈ after.journal.position, p.entryIndex = 0) ↔
          a.symbol ∈ (screen [a] s.entry).passed ∧ Succeeds (s.price.valueAt a 0)) ∧
        (after.journal.skipped = before.journal.skipped + 1 ↔
          (∃ e, (a.symbol, e) ∈ (screen [a] s.entry).ineligible) ∨
            a.symbol ∈ (screen [a] s.entry).passed ∧ Fails (s.price.valueAt a 0)) ∧
        after.journal.trades = before.journal.trades.map (RoundTrip.shift · 1)) ∧
      (before.journal.position ≠ none →
        (∀ t ∈ after.journal.trades, t.entryIndex ≠ 0) ∧
          ∀ p ∈ after.journal.position, p.entryIndex ≠ 0) := by
  have whole := replayBelow_newest (s := s) nonempty
  refine ⟨_, _, a.older.backtest_eq_replayBelow s, a.backtest_eq_replayBelow s, ?_⟩
  simp only [Ledger.ofJournal] at whole ⊢
  rw [whole]
  constructor
  · intro flat
    obtain ⟨trades, opens, skips⟩ := replayBelow_one_none (s := s) nonempty
    rw [flat, Option.map_none, ← enters_newest_iff nonempty, ← entryFails_newest_iff nonempty,
      ← opens, ← skips]
    refine ⟨Iff.rfl, ?_, ?_⟩
    · simp only [Journal.join]
      omega
    · simp only [Journal.join, trades, List.append_nil]
  · intro held
    obtain ⟨p, last⟩ := Option.ne_none_iff_exists'.mp held
    obtain ⟨closes, keeps⟩ := replayBelow_one_some (s := s) nonempty (p.shift 1)
    have opened : (p.shift 1).entryIndex = p.entryIndex + 1 := rfl
    rw [last, Option.map_some]
    constructor
    · intro t member
      rcases List.mem_append.mp member with old | new
      · obtain ⟨u, -, rfl⟩ := List.mem_map.mp old
        exact Nat.succ_ne_zero u.entryIndex
      · have entry := closes t new
        omega
    · intro q last
      have entry := keeps q last
      omega

/-- Three days and a strategy that enters above a price, which a screen passes on the third one.
Sold at a loss on the second day, it is bought again on the third; where the stop is too low for
that, the third day finds the position of the first and opens none. -/
theorem backtest_agrees_with_screen_breakout :
    let day (n : Fin 31) : Timestamp := ⟨2024, 1, n + 1, 0, 0, 0, by decide, by decide,
      ⟨Nat.succ_pos n, n.isLt⟩, by decide, by decide, by decide⟩
    let quote (n : Fin 31) (close : Float) : Quote := ⟨day n, close, close, close, close, 1000⟩
    let a : Asset := ofQuotes "TEST" [quote 0 13.0, quote 1 9.0, quote 2 14.0]
    let breakout (stop : Float) : Strategy := ⟨"breakout", "",
      .compare .gt (.field .close) (.value 12.0), .field .close, [.stopLoss stop (.field .close)]⟩
    0 < a.length ∧ (∀ stop, (screen [a] (breakout stop).entry).passed = ["TEST"]) ∧
      (∃ before after, a.older.backtest (breakout 10.0) = .ok before ∧
        a.backtest (breakout 10.0) = .ok after ∧
        before.journal = ⟨[⟨⟨1, 0, 13.0, 9.0, -4.0⟩, day 0, day 1⟩], none, 0⟩ ∧
        (∃ p ∈ after.journal.position, p.entryIndex = 0) ∧
        after.journal =
          ⟨[⟨⟨2, 1, 13.0, 9.0, -4.0⟩, day 0, day 1⟩], some ⟨0, day 2, 14.0⟩, 0⟩) ∧
      ∃ before after, a.older.backtest (breakout 5.0) = .ok before ∧
        a.backtest (breakout 5.0) = .ok after ∧
        before.journal = ⟨[], some ⟨1, day 0, 13.0⟩, 0⟩ ∧
        (∀ p ∈ after.journal.position, p.entryIndex ≠ 0) ∧
        after.journal = ⟨[], some ⟨2, day 0, 13.0⟩, 0⟩ := by
  intro day quote a breakout
  have nonempty : 0 < a.length := by decide
  have price : Succeeds ((Method.field .close).valueAt a 0) := ⟨14.0, by decide +kernel⟩
  have passed : ∀ stop, (screen [a] (breakout stop).entry).passed = ["TEST"] := by
    intro stop
    change (screen [a] (breakout 10.0).entry).passed = ["TEST"]
    decide +kernel
  have among : a.symbol ∈ ["TEST"] := .head _
  refine ⟨nonempty, passed, ?_, ?_⟩
  · obtain ⟨before, after, ran, ran_on, from_flat, -⟩ :=
      backtest_agrees_with_screen a (breakout 10.0) nonempty
    obtain rfl := Except.ok.inj ((backtest_eq _ _).symm.trans ran)
    obtain rfl := Except.ok.inj ((backtest_eq _ _).symm.trans ran_on)
    rw [passed] at from_flat
    have opened := (from_flat (by decide +kernel)).1.mpr ⟨among, price⟩
    exact ⟨_, _, ran, ran_on, by decide +kernel, opened, by decide +kernel⟩
  · obtain ⟨before, after, ran, ran_on, -, from_held⟩ :=
      backtest_agrees_with_screen a (breakout 5.0) nonempty
    obtain rfl := Except.ok.inj ((backtest_eq _ _).symm.trans ran)
    obtain rfl := Except.ok.inj ((backtest_eq _ _).symm.trans ran_on)
    have kept := (from_held (by decide +kernel)).2
    exact ⟨_, _, ran, ran_on, by decide +kernel, kept, by decide +kernel⟩

end Asset

end TradingRules
