import Mathlib.Data.List.Forall2
import TradingRules.Proofs.Alternation
import TradingRules.Proofs.Numbers

/-!
# Looser exits

Exits are loosened by more rules, put in anywhere, and by targets that are reached sooner. Looser
exits leave at every bar that the tighter ones leave at, and what a run does without a position does
not depend on exits at all. Two runs therefore agree up to the first entry, and from there until the
looser exits close that position. Later the two may part, so nothing is said about later trades.
-/

namespace TradingRules

/-- A rule that fires wherever the first one does: the rule itself, or one of its kind with a target
that is reached sooner. -/
inductive ExitRule.Loosens : ExitRule → ExitRule → Prop
  | kept (rule : ExitRule) : Loosens rule rule
  | lowered {target lower : Float} (price : Method) : lower ≤ target →
      Loosens (.takeProfit target price) (.takeProfit lower price)
  | raised {target higher : Float} (price : Method) : target ≤ higher →
      Loosens (.stopLoss target price) (.stopLoss higher price)

section Rules

variable {t : Tape} {i : Nat}

theorem ExitRule.fires_takeProfit_iff {target : Float} {price : Method} :
    (ExitRule.takeProfit target price).fires t i = .ok true ↔
      ∃ x, t.value price i = .ok x ∧ target ≤ x := by
  simp only [fires, bind_eq_ok_iff, pure_eq_ok, Except.ok.injEq, decide_eq_true_eq, ge_iff_le]

theorem ExitRule.fires_stopLoss_iff {target : Float} {price : Method} :
    (ExitRule.stopLoss target price).fires t i = .ok true ↔
      ∃ x, t.value price i = .ok x ∧ x ≤ target := by
  simp only [fires, bind_eq_ok_iff, pure_eq_ok, Except.ok.injEq, decide_eq_true_eq]

theorem ExitRule.Loosens.fires {tight loose : ExitRule} (loosens : tight.Loosens loose)
    (fires : tight.fires t i = .ok true) : loose.fires t i = .ok true := by
  cases loosens with
  | kept => exact fires
  | lowered price lower =>
    obtain ⟨x, read, reached⟩ := fires_takeProfit_iff.mp fires
    exact fires_takeProfit_iff.mpr ⟨x, read, float_le_trans lower reached⟩
  | raised price higher =>
    obtain ⟨x, read, reached⟩ := fires_stopLoss_iff.mp fires
    exact fires_stopLoss_iff.mpr ⟨x, read, float_le_trans reached higher⟩

/-- Where a rule fires, one of the looser rules does, whatever the others answer. -/
theorem fires_of_loosened {tight loose : List ExitRule}
    (loosened : List.SublistForall₂ ExitRule.Loosens tight loose)
    (fired : ∃ rule ∈ tight, rule.fires t i = .ok true) :
    ∃ rule ∈ loose, rule.fires t i = .ok true := by
  induction loosened with
  | nil =>
    obtain ⟨rule, member, -⟩ := fired
    cases member
  | cons loosens _ ih =>
    obtain ⟨rule, member, fires⟩ := fired
    rcases List.mem_cons.mp member with rfl | later
    · exact ⟨_, List.mem_cons_self, loosens.fires fires⟩
    · obtain ⟨looser, member, fires⟩ := ih ⟨rule, later, fires⟩
      exact ⟨looser, List.mem_cons_of_mem _ member, fires⟩
  | cons_right _ ih =>
    obtain ⟨looser, member, fires⟩ := ih fired
    exact ⟨looser, List.mem_cons_of_mem _ member, fires⟩

end Rules

namespace Journal

/-- The first position of a run: the one its first trade began as or, without a trade, the one it
ends with. -/
def opening? (j : Journal) : Option Position :=
  match j.trades with
  | [] => j.position
  | first :: _ => some first.opening

/-- If one run closes its first position, the other does so at that bar or at an older one. -/
def ClosesNoLater (loose tight : Journal) : Prop :=
  ∀ t ∈ tight.trades.head?, ∃ u ∈ loose.trades.head?, t.exitIndex ≤ u.exitIndex

theorem Continues.opening? {j : Journal} {p : Position} {n : Nat} (continues : j.Continues p n) :
    j.opening? = some p := by
  rcases continues with ⟨trades, last⟩ | ⟨first, rest, trades, rfl, -⟩
  · rw [Journal.opening?, trades, last]
  · rw [Journal.opening?, trades]

theorem Continues.closed_below {j : Journal} {p : Position} {n : Nat}
    (continues : j.Continues p n) : ∀ t ∈ j.trades.head?, t.exitIndex < n := by
  rcases continues with ⟨trades, -⟩ | ⟨first, rest, trades, -, closed, -⟩
  · simp [trades]
  · simpa [trades] using closed

end Journal

namespace Asset

variable {a : Asset} {s : Strategy} {exits : List ExitRule} {n : Nat}

theorem leaves_of_loosened (loosened : List.SublistForall₂ ExitRule.Loosens s.exits exits)
    (leaves : a.At s.Leaves n) : a.At { s with exits := exits }.Leaves n := by
  obtain ⟨bar, present, fired, priced⟩ := leaves
  exact ⟨bar, present, fires_of_loosened loosened fired, priced⟩

/-- A position that both runs hold is closed no later with looser exits. -/
theorem replayBelow_held_loosened (loosened : List.SublistForall₂ ExitRule.Loosens s.exits exits)
    (inside : n ≤ a.history.length) (p : Position) :
    (a.replayBelow { s with exits := exits } n (some p)).ClosesNoLater
      (a.replayBelow s n (some p)) := by
  induction n with
  | zero => simp [Journal.ClosesNoLater, replayBelow_zero]
  | succ n ih =>
    have newer := ih (Nat.le_of_succ_le inside)
    have tight_below := ((replayBelow_below (s := s) inside).2 p).closed_below
    -- While the looser exits stay the tighter ones stay too, and neither bar adds a trade.
    have both_stay (stays : ¬ a.At { s with exits := exits }.Leaves n)
        (same : (a.replayBelow { s with exits := exits } (n + 1) (some p)).trades =
          (a.replayBelow { s with exits := exits } n (some p)).trades) :
        (a.replayBelow { s with exits := exits } (n + 1) (some p)).ClosesNoLater
          (a.replayBelow s (n + 1) (some p)) := by
      rw [Journal.ClosesNoLater, same]
      rcases replayBelow_succ_some (s := s) inside p with
        ⟨price, leaves, -⟩ | ⟨-, -, step⟩ | ⟨-, -, step⟩
      · exact absurd (leaves_of_loosened loosened leaves) stays
      · rwa [step]
      · rwa [step]
    rcases replayBelow_succ_some (s := { s with exits := exits }) inside p with
      ⟨price, -, -, -, step⟩ | ⟨stays, -, step⟩ | ⟨stays, -, step⟩
    · intro t first
      have closed := tight_below t first
      rw [step]
      exact ⟨_, rfl, Nat.le_of_lt_succ closed⟩
    · exact both_stay stays (by rw [step])
    · exact both_stay stays (by rw [step])

/-- Without a position both runs do the same until they open one. -/
theorem replayBelow_loosened (loosened : List.SublistForall₂ ExitRule.Loosens s.exits exits)
    (inside : n ≤ a.history.length) :
    (a.replayBelow { s with exits := exits } n none).opening? =
        (a.replayBelow s n none).opening? ∧
      (a.replayBelow { s with exits := exits } n none).ClosesNoLater (a.replayBelow s n none) := by
  induction n with
  | zero => simp [Journal.ClosesNoLater, Journal.opening?, replayBelow_zero]
  | succ n ih =>
    have within : n ≤ a.history.length := Nat.le_of_succ_le inside
    have enters (b : Bar) : { s with exits := exits }.enter a.tape b = s.enter a.tape b := rfl
    simp only [replayBelow, a.barsBelow_succ inside, Strategy.replay, enters]
    cases s.enter a.tape ⟨n, a.history[n].time⟩ with
    | error e => exact ih within
    | ok opened =>
      cases opened with
      | none => exact ih within
      | some p =>
        have loose := (replayBelow_below (s := { s with exits := exits }) within).2 p
        have tight := (replayBelow_below (s := s) within).2 p
        exact ⟨loose.opening?.trans tight.opening?.symm,
          replayBelow_held_loosened loosened within p⟩

/-- With more exit rules, put in anywhere, and with targets to take a profit at lowered and those to
stop a loss at raised, a backtest opens its first position at the same bar, time and price, or again
opens none. If the first trade came to an exit before, it now comes to one at that bar or at an
older one. -/
theorem backtest_of_looser_exits (a : Asset) (s : Strategy) (exits : List ExitRule)
    (loosened : List.SublistForall₂ ExitRule.Loosens s.exits exits) :
    ∃ tight loose, a.backtest s = .ok tight ∧ a.backtest { s with exits := exits } = .ok loose ∧
      loose.journal.opening? = tight.journal.opening? ∧
      ∀ t ∈ tight.journal.trades.head?,
        ∃ u ∈ loose.journal.trades.head?, t.exitIndex ≤ u.exitIndex := by
  obtain ⟨opening, closes⟩ := replayBelow_loosened (a := a) loosened (Nat.le_refl _)
  exact ⟨_, _, a.backtest_eq_replayBelow s, a.backtest_eq_replayBelow _, opening, closes⟩

/-- Three bars that close ever higher. A rule that has no value before the newest one is put in
front and the target is lowered from the third close to the second, so the first trade ends one bar
earlier. -/
theorem backtest_of_looser_exits_lower_target :
    let first : Quote := ⟨⟨2024, 1, 1, 0, 0, 0, by decide, by decide, by decide, by decide,
      by decide, by decide⟩, 10.0, 11.0, 9.0, 10.0, 1000⟩
    let second : Quote := ⟨⟨2024, 1, 2, 0, 0, 0, by decide, by decide, by decide, by decide,
      by decide, by decide⟩, 11.0, 13.0, 10.0, 12.0, 1000⟩
    let third : Quote := ⟨⟨2024, 1, 3, 0, 0, 0, by decide, by decide, by decide, by decide,
      by decide, by decide⟩, 13.0, 16.0, 12.0, 15.0, 1000⟩
    let s : Strategy := ⟨"target", "", .always true, .field .close,
      [.takeProfit 15.0 (.field .close)]⟩
    let above : ExitRule := .signal (.compare .gt (.field .close) (.sma 3 (.field .close)))
    let exits : List ExitRule := [above, .takeProfit 12.0 (.field .close)]
    let a : Asset := ofQuotes "TEST" [first, second, third]
    List.SublistForall₂ ExitRule.Loosens s.exits exits ∧
      ∃ tight loose, a.backtest s = .ok tight ∧ a.backtest { s with exits := exits } = .ok loose ∧
        loose.journal.opening? = tight.journal.opening? ∧
        (∀ t ∈ tight.journal.trades.head?,
          ∃ u ∈ loose.journal.trades.head?, t.exitIndex ≤ u.exitIndex) ∧
        tight.journal.rounds = [(2, 0)] ∧ loose.journal.rounds = [(2, 1)] := by
  intro first second third s above exits a
  have lower : (12.0 : Float) ≤ 15.0 := by decide
  have loosened : List.SublistForall₂ ExitRule.Loosens s.exits exits :=
    .cons_right (.cons (.lowered _ lower) .nil)
  obtain ⟨tight, loose, ran, ran_loose, opening, closes⟩ :=
    backtest_of_looser_exits a s exits loosened
  obtain rfl := Except.ok.inj ((a.backtest_eq_replayBelow s).symm.trans ran)
  obtain rfl := Except.ok.inj ((a.backtest_eq_replayBelow { s with exits := exits }).symm.trans
    ran_loose)
  exact ⟨loosened, _, _, ran, ran_loose, opening, closes, by decide, by decide⟩

end Asset

end TradingRules
