import TradingRules.Proofs.Extension
import TradingRules.Proofs.Journal

/-!
# No look-ahead

Quotes that arrive later do not change what a backtest did before them. It makes the same trades at
the same bars, goes into the newer bars with the same position and has skipped the same bars; only
the indices, which count back from the newest bar, grow by the number of newer ones.
-/

namespace TradingRules

/-- A trade seen from newer bars. -/
def RoundTrip.shift (t : RoundTrip) (d : Nat) : RoundTrip :=
  { t with entryIndex := t.entryIndex + d, exitIndex := t.exitIndex + d }

/-- The journal of older bars and then that of the newer ones, as seen from the newest. -/
def Journal.join (before after : Journal) (d : Nat) : Journal where
  trades := before.trades.map (RoundTrip.shift · d) ++ after.trades
  position := after.position
  skipped := before.skipped + after.skipped

/-- A replay of older bars and then of newer ones, from two tapes that agree on the older: the newer
bars start with the position that the older ones end with. -/
theorem Strategy.replay_extends {later earlier : Tape} {d : Nat}
    (longer : later.Extends earlier d) (s : Strategy) (newer older : List Bar)
    (position : Option Position) :
    s.replay later (older.map (Bar.shift · d) ++ newer) (position.map (Position.shift · d)) =
      let before := s.replay earlier older position
      let after := s.replay later newer (before.position.map (Position.shift · d))
      before.join after d := by
  induction older generalizing position with
  | nil => simp [replay, Journal.join]
  | cons b rest ih =>
    cases position with
    | none =>
      have decision := s.enter_extends longer b
      cases now : s.enter earlier b with
      | ok opened =>
        have opens : s.enter later (b.shift d) = .ok (opened.map (Position.shift · d)) :=
          toOption_eq_some_iff.mp (by rw [decision, now]; rfl)
        simp only [List.map_cons, List.cons_append, Option.map_none, replay, now, opens]
        exact ih opened
      | error e =>
        obtain ⟨e', fails⟩ : Fails (s.enter later (b.shift d)) :=
          toOption_eq_none_iff.mp (by rw [decision, now]; rfl)
        have flat := ih none
        rw [Option.map_none] at flat
        simp only [List.map_cons, List.cons_append, Option.map_none, replay, now, fails, flat,
          Journal.join, Journal.mk.injEq, true_and]
        omega
    | some p =>
      have decision := s.leave_extends longer b
      have held := ih (some p)
      rw [Option.map_some] at held
      cases now : s.leave earlier b with
      | ok price =>
        have leaves : s.leave later (b.shift d) = .ok price :=
          toOption_eq_some_iff.mp (by rw [decision, now]; rfl)
        simp only [List.map_cons, List.cons_append, Option.map_some, replay, now, leaves]
        cases price with
        | none => exact held
        | some x =>
          have flat := ih none
          rw [Option.map_none] at flat
          simp only [flat, Journal.join, List.map_cons, List.cons_append]
          rfl
      | error e =>
        obtain ⟨e', fails⟩ : Fails (s.leave later (b.shift d)) :=
          toOption_eq_none_iff.mp (by rw [decision, now]; rfl)
        simp only [List.map_cons, List.cons_append, Option.map_some, replay, now, fails, held,
          Journal.join, Journal.mk.injEq, true_and]
        omega

namespace Asset

variable {later earlier : Asset} {newer : List Quote} {s : Strategy}

theorem barsBelow_extends (longer : later.history = newer ++ earlier.history) {n : Nat}
    (inside : n ≤ earlier.history.length) :
    later.barsBelow (n + newer.length) =
      (earlier.barsBelow n).map (Bar.shift · newer.length) ++ later.barsBelow newer.length := by
  induction n with
  | zero => simp [barsBelow]
  | succ n ih =>
    have here : n < earlier.history.length := inside
    have there : n + newer.length < later.history.length := by
      rw [longer, List.length_append]
      omega
    have same : later.history[n + newer.length] = earlier.history[n] := by
      simp only [longer]
      rw [List.getElem_append_right (Nat.le_add_left _ _)]
      simp only [Nat.add_sub_cancel]
    rw [Nat.add_right_comm, barsBelow_succ _ there, barsBelow_succ _ here,
      ih (Nat.le_of_lt here), same]
    rfl

/-- The replay of a longer history is that of the shorter one, followed by the newer bars. -/
theorem replayBelow_extends (longer : later.history = newer ++ earlier.history) :
    later.replayBelow s later.length none =
      let before := earlier.replayBelow s earlier.length none
      let after :=
        later.replayBelow s newer.length (before.position.map (Position.shift · newer.length))
      before.join after newer.length := by
  have total : later.length = earlier.length + newer.length := by
    rw [← length_history, longer, List.length_append, length_history]
    omega
  rw [total, replayBelow, barsBelow_extends (n := earlier.length) longer (Nat.le_refl _)]
  exact s.replay_extends (tape_extends longer) _ _ none

end Asset

/-- One journal goes on where another one ends, at the first of some newer bars. -/
structure Journal.Extends (later earlier : Journal) (d : Nat) : Prop where
  /-- What was closed at an older bar is what the shorter run closed. -/
  trades : later.trades.filter (d ≤ ·.exitIndex) = earlier.trades.map (RoundTrip.shift · d)
  /-- A position left open is closed by the next trade, or never. -/
  held : ∀ p ∈ earlier.position,
    (∃ t, later.trades[earlier.trades.length]? = some t ∧ t.opening = p.shift d) ∨
      later.position = some (p.shift d)
  /-- Without one, nothing else was opened at an older bar. -/
  flat : earlier.position = none →
    (∀ t ∈ later.trades, d ≤ t.entryIndex → d ≤ t.exitIndex) ∧
      ∀ p ∈ later.position, p.entryIndex < d

namespace Journal

variable {before after : Journal} {d : Nat}

theorem Continues.closed {j : Journal} {p : Position} {n : Nat} (continues : j.Continues p n) :
    ∀ t ∈ j.trades, t.exitIndex < n := by
  rcases continues with ⟨trades, -⟩ | ⟨first, rest, trades, -, closed, below⟩
  · simp [trades]
  · rw [trades, List.forall_mem_cons]
    exact ⟨closed, fun t member => (below.trades t member).2⟩

/-- The trades closed at an older bar are those of the older journal. -/
theorem filter_join (closed : ∀ t ∈ after.trades, t.exitIndex < d) :
    (before.join after d).trades.filter (d ≤ ·.exitIndex) =
      before.trades.map (RoundTrip.shift · d) := by
  have old : (before.trades.map (RoundTrip.shift · d)).filter (d ≤ ·.exitIndex) =
      before.trades.map (RoundTrip.shift · d) := by
    rw [List.filter_eq_self]
    intro t member
    obtain ⟨u, -, rfl⟩ := List.mem_map.mp member
    simp [RoundTrip.shift]
  have new : after.trades.filter (d ≤ ·.exitIndex) = [] := by
    rw [List.filter_eq_nil_iff]
    intro t member
    have newer := closed t member
    simp only [decide_eq_true_eq]
    omega
  rw [join, List.filter_append, old, new, List.append_nil]

theorem join_extends_of_flat (flat : before.position = none) (below : after.Below d) :
    (before.join after d).Extends before d where
  trades := filter_join fun t member => (below.trades t member).2
  held p held := by
    rw [flat] at held
    cases held
  flat _ := by
    refine ⟨fun t member opened => ?_, below.position⟩
    rcases List.mem_append.mp member with old | new
    · obtain ⟨u, -, rfl⟩ := List.mem_map.mp old
      exact Nat.le_add_left d u.exitIndex
    · have newer := (below.trades t new).1
      omega

theorem join_extends_of_held {p : Position} (held : before.position = some p)
    (continues : after.Continues (p.shift d) d) : (before.join after d).Extends before d where
  trades := filter_join continues.closed
  held q same := by
    obtain rfl : p = q := Option.some.inj (held.symm.trans same)
    rcases continues with ⟨-, kept⟩ | ⟨first, rest, trades, opening, -, -⟩
    · exact .inr kept
    · refine .inl ⟨first, ?_, opening⟩
      rw [join, trades, List.getElem?_append_right (by simp)]
      simp
  flat none := by
    rw [held] at none
    cases none

/-- Whether a position is held at a newer bar is settled by the journal of the newer bars. -/
theorem holding_join {i : Nat} (newer : i < d) :
    (before.join after d).Holding i ↔ after.Holding i := by
  have old :
      ¬ ∃ t ∈ before.trades.map (RoundTrip.shift · d), t.exitIndex ≤ i ∧ i < t.entryIndex := by
    rintro ⟨t, member, closed, -⟩
    obtain ⟨u, -, rfl⟩ := List.mem_map.mp member
    have : (u.shift d).exitIndex = u.exitIndex + d := rfl
    omega
  simp only [Holding, join, List.mem_append, or_and_right, exists_or, old, false_or]

end Journal

namespace Asset

theorem length_le_of_extends {later earlier : Asset} {newer : List Quote}
    (longer : later.history = newer ++ earlier.history) : newer.length ≤ later.history.length := by
  rw [longer, List.length_append]
  omega

theorem replayBelow_goes_on {later earlier : Asset} {newer : List Quote}
    (longer : later.history = newer ++ earlier.history) (s : Strategy) :
    (later.replayBelow s later.length none).Extends (earlier.replayBelow s earlier.length none)
      newer.length := by
  obtain ⟨flat, held⟩ := replayBelow_below (s := s) (length_le_of_extends longer)
  rw [replayBelow_extends longer]
  cases last : (earlier.replayBelow s earlier.length none).position with
  | none => exact Journal.join_extends_of_flat last (by rw [last]; exact flat)
  | some p => exact Journal.join_extends_of_held last (by rw [last]; exact held _)

theorem replayBelow_skips {later earlier : Asset} {newer : List Quote}
    (longer : later.history = newer ++ earlier.history) (s : Strategy) :
    (later.replayBelow s later.length none).skipped =
      (earlier.replayBelow s earlier.length none).skipped +
        (later.replayBelow s later.length none).failures later s newer.length := by
  have older : ∀ p ∈ (earlier.replayBelow s earlier.length none).position.map
      (Position.shift · newer.length), newer.length ≤ p.entryIndex := by
    intro p member
    obtain ⟨q, -, rfl⟩ := Option.map_eq_some_iff.mp member
    exact Nat.le_add_left newer.length q.entryIndex
  have skipped := replayBelow_skipped (s := s) (length_le_of_extends longer) _ older
  rw [replayBelow_extends longer, Journal.failures_congr fun i newer => Journal.holding_join newer,
    ← skipped]
  rfl

/-- Newer quotes do not change what a backtest did before them. Of the two runs the longer one makes
the trades of the shorter one, with their indices moved by the number of newer quotes and with the
same times, prices and profits. It goes on with the position the shorter one ends with, and skips
the bars the shorter one skips and those of the newer bars whose decision in force fails. -/
theorem backtest_append (symbol : String) (older newer : List Quote) (s : Strategy)
    (later : ∀ q ∈ older, ∀ r ∈ newer, q.time ≤ r.time) :
    ∃ before after,
      (ofQuotes symbol older).backtest s = .ok before ∧
      (ofQuotes symbol (older ++ newer)).backtest s = .ok after ∧
      after.journal.Extends before.journal newer.length ∧
      after.journal.skipped = before.journal.skipped +
        after.journal.failures (ofQuotes symbol (older ++ newer)) s newer.length := by
  have longer : (ofQuotes symbol (older ++ newer)).history =
      newestFirst newer ++ (ofQuotes symbol older).history := by
    simp only [ofQuotes, history]
    exact newestFirst_append later
  have goes_on := replayBelow_goes_on longer s
  have skips := replayBelow_skips longer s
  rw [length_newestFirst] at goes_on skips
  refine ⟨_, _, backtest_eq _ s, backtest_eq _ s, ?_⟩
  rw [bars_eq, bars_eq]
  exact ⟨goes_on, skips⟩

/-- A third day after two. On the first one there is no average yet, on the second one the price is
above it and bought at, and on the third one it is sold at. -/
theorem backtest_append_third_day :
    let first : Quote := ⟨⟨2024, 1, 1, 0, 0, 0, by decide, by decide, by decide, by decide,
      by decide, by decide⟩, 10.0, 12.0, 9.0, 10.0, 1000⟩
    let second : Quote := ⟨⟨2024, 1, 2, 0, 0, 0, by decide, by decide, by decide, by decide,
      by decide, by decide⟩, 11.0, 14.0, 11.0, 12.0, 2000⟩
    let third : Quote := ⟨⟨2024, 1, 3, 0, 0, 0, by decide, by decide, by decide, by decide,
      by decide, by decide⟩, 12.0, 15.0, 12.0, 13.0, 1000⟩
    let entry : Filter := .compare .gt (.field .close) (.sma 2 (.field .close))
    let s : Strategy := ⟨"in and out", "", entry, .field .close, [.signal (.always true)]⟩
    (∀ q ∈ [first, second], ∀ r ∈ [third], q.time ≤ r.time) ∧
      ∃ before after,
        (ofQuotes "TEST" [first, second]).backtest s = .ok before ∧
        (ofQuotes "TEST" ([first, second] ++ [third])).backtest s = .ok after ∧
        after.journal.Extends before.journal 1 ∧
        before.journal = ⟨[], some ⟨0, second.time, 12.0⟩, 1⟩ ∧
        after.journal = ⟨[⟨⟨1, 0, 12.0, 13.0, 1.0⟩, second.time, third.time⟩], none, 1⟩ := by
  intro first second third entry s
  have later : ∀ q ∈ [first, second], ∀ r ∈ [third], q.time ≤ r.time := by decide
  obtain ⟨before, after, ran, ran_on, continued, -⟩ :=
    backtest_append "TEST" [first, second] [third] s later
  obtain rfl := Except.ok.inj ((backtest_eq _ s).symm.trans ran)
  obtain rfl := Except.ok.inj ((backtest_eq _ s).symm.trans ran_on)
  exact ⟨later, _, _, ran, ran_on, continued, by decide +kernel, by decide +kernel⟩

end Asset

end TradingRules
