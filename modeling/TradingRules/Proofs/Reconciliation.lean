import Mathlib.Data.List.Induction
import Mathlib.Order.Bounds.Basic
import TradingRules.Proofs.Rationals
import TradingRules.Trade

/-!
# Figures that agree with each other

Where profits are added up without rounding, the figures of a list of trades are tied to one
another. The deepest fall is the greatest difference between an earlier and a later point of the
accumulated profit, its start at zero included; what was won less what was lost is the total profit;
no average exceeds the largest of what it averages; and what was won for each unit lost is the
quotient of the two.
-/

namespace TradingRules

namespace Metrics

section Drawdown

/-- The accumulated profit after the first `k` profits. -/
def accumulated (profits : List Rat) (k : Nat) : Rat := (profits.take k).sum

/-- The falls of the accumulated profit from one point to the same or a later one. -/
def falls (profits : List Rat) : Set Rat :=
  { fall | ∃ i j, i ≤ j ∧ j ≤ profits.length ∧
      fall = accumulated profits i - accumulated profits j }

/-- The points of the accumulated profit, the start included. -/
def levels (profits : List Rat) : Set Rat :=
  { level | ∃ i, i ≤ profits.length ∧ level = accumulated profits i }

theorem accumulated_append_of_le {profits : List Rat} {k : Nat} (inside : k ≤ profits.length)
    (profit : Rat) : accumulated (profits ++ [profit]) k = accumulated profits k := by
  rw [accumulated, List.take_append_of_le_length inside, accumulated]

theorem accumulated_append_last (profits : List Rat) (profit : Rat) :
    accumulated (profits ++ [profit]) (profits.length + 1) =
      accumulated profits profits.length + profit := by
  have whole : (profits ++ [profit]).length ≤ profits.length + 1 := by simp
  rw [accumulated, List.take_of_length_le whole, accumulated, List.take_length, List.sum_append,
    List.sum_singleton]

/-- What the state of the running figures says about the profits so far. -/
structure Curve.Tracks (profits : List Rat) (c : Curve Rat) : Prop where
  level : c.level = accumulated profits profits.length
  height : IsGreatest (levels profits) c.height
  fall : IsGreatest (falls profits) c.fall

theorem Curve.tracks_nil : Curve.Tracks [] ⟨0, 0, 0⟩ := by
  refine ⟨rfl, ⟨⟨0, Nat.le_refl 0, rfl⟩, ?_⟩, ⟨⟨0, 0, Nat.le_refl 0, Nat.le_refl 0, ?_⟩, ?_⟩⟩
  · rintro level ⟨i, inside, rfl⟩
    obtain rfl := Nat.le_zero.mp inside
    exact le_refl _
  · exact (sub_self _).symm
  · rintro fall ⟨i, j, before, inside, rfl⟩
    obtain rfl := Nat.le_zero.mp inside
    obtain rfl := Nat.le_zero.mp before
    exact le_of_eq (sub_self _)

theorem Curve.step_eq (c : Curve Rat) (profit : Rat) :
    c.step profit =
      ⟨c.level + profit, max c.height (c.level + profit),
        max c.fall (max c.height (c.level + profit) - (c.level + profit))⟩ := by
  rw [← Rational.if_gt_eq_max c.height, ← Rational.if_gt_eq_max c.fall]
  rfl

/-- One more profit adds one more point, to be compared with the height of those before it. -/
theorem Curve.Tracks.step {profits : List Rat} {c : Curve Rat} (tracks : c.Tracks profits)
    (profit : Rat) : (c.step profit).Tracks (profits ++ [profit]) := by
  have last : accumulated (profits ++ [profit]) (profits.length + 1) = c.level + profit := by
    rw [accumulated_append_last, tracks.level]
  have length : (profits ++ [profit]).length = profits.length + 1 := by simp
  obtain ⟨⟨top, top_inside, top_level⟩, highest⟩ := tracks.height
  have height : IsGreatest (levels (profits ++ [profit])) (max c.height (c.level + profit)) := by
    constructor
    · rcases le_total (c.level + profit) c.height with below | above
      · refine ⟨top, by omega, ?_⟩
        rw [max_eq_left below, accumulated_append_of_le top_inside, top_level]
      · refine ⟨profits.length + 1, by omega, ?_⟩
        rw [max_eq_right above, last]
    · rintro level ⟨i, inside, rfl⟩
      rcases Nat.lt_or_ge profits.length i with new | old
      · obtain rfl : i = profits.length + 1 := by omega
        rw [last]
        exact le_max_right _ _
      · rw [accumulated_append_of_le old]
        exact le_trans (highest ⟨i, old, rfl⟩) (le_max_left _ _)
  rw [Curve.step_eq]
  refine ⟨?_, height, ?_, ?_⟩
  · rw [length, last]
  · -- The deepest fall is an earlier one, or the one from the height to the new point.
    rcases le_total (max c.height (c.level + profit) - (c.level + profit)) c.fall with
      shallow | deep
    · obtain ⟨i, j, before, inside, fall⟩ := tracks.fall.1
      refine ⟨i, j, before, by omega, ?_⟩
      rw [max_eq_left shallow, accumulated_append_of_le (Nat.le_trans before inside),
        accumulated_append_of_le inside, fall]
    · obtain ⟨i, inside, level⟩ := height.1
      refine ⟨i, profits.length + 1, by omega, by omega, ?_⟩
      rw [max_eq_right deep, last, ← level]
  · rintro fall ⟨i, j, before, inside, rfl⟩
    rcases Nat.lt_or_ge profits.length j with new | old
    · obtain rfl : j = profits.length + 1 := by omega
      have below := height.2 ⟨i, by omega, rfl⟩
      rw [last]
      exact le_trans (sub_le_sub_right below _) (le_max_right _ _)
    · rw [accumulated_append_of_le (Nat.le_trans before old), accumulated_append_of_le old]
      exact le_trans (tracks.fall.2 ⟨i, j, before, old, rfl⟩) (le_max_left _ _)

theorem Curve.tracks_foldl (profits : List Rat) :
    (profits.foldl Curve.step ⟨0, 0, 0⟩).Tracks profits := by
  induction profits using List.reverseRecOn with
  | nil => exact Curve.tracks_nil
  | append_singleton profits profit ih =>
    rw [List.foldl_append]
    exact ih.step profit

theorem drawdown_isGreatest (profits : List Rat) :
    IsGreatest (falls profits) (drawdown profits) :=
  (Curve.tracks_foldl profits).fall

end Drawdown

section Averages

open Rational

theorem sum_eq (xs : List Rat) : sum xs = xs.sum :=
  (foldl_add_eq xs 0).trans (zero_add _)

theorem mul_perCount {part : Rat} {whole : Nat} (nothing : whole = 0 → part = 0) :
    whole * perCount part whole = part := by
  unfold perCount
  split
  · rename_i positive
    have nonzero : (whole : Rat) ≠ 0 := by exact_mod_cast Nat.ne_of_gt positive
    exact mul_div_cancel₀ part nonzero
  · rename_i none
    obtain rfl : whole = 0 := by omega
    rw [nothing rfl]
    exact mul_zero _

theorem mul_average (xs : List Rat) : xs.length * perCount (sum xs) xs.length = xs.sum := by
  rw [mul_perCount, sum_eq]
  intro none
  rw [List.eq_nil_of_length_eq_zero none]
  rfl

theorem peak_eq (xs : List Rat) : peak xs = xs.foldl max 0 := by
  unfold peak
  congr 1
  funext top x
  exact if_gt_eq_max top x

theorem le_foldl_max (xs : List Rat) (top : Rat) :
    top ≤ xs.foldl max top ∧ ∀ x ∈ xs, x ≤ xs.foldl max top := by
  induction xs generalizing top with
  | nil => exact ⟨le_refl top, by simp⟩
  | cons x rest ih =>
    obtain ⟨first, others⟩ := ih (max top x)
    refine ⟨le_trans (le_max_left _ _) first, ?_⟩
    rw [List.forall_mem_cons]
    exact ⟨le_trans (le_max_right _ _) first, others⟩

theorem peak_bounds (xs : List Rat) : 0 ≤ peak xs ∧ ∀ x ∈ xs, x ≤ peak xs := by
  rw [peak_eq]
  exact le_foldl_max xs 0

/-- An average is at most the largest of what it averages. -/
theorem average_le_peak (xs : List Rat) : perCount (sum xs) xs.length ≤ peak xs := by
  obtain ⟨nonneg, bound⟩ := peak_bounds xs
  unfold perCount
  split
  · rename_i positive
    have total : sum xs ≤ xs.length * peak xs := by
      rw [sum_eq, ← nsmul_eq_mul]
      exact List.sum_le_card_nsmul xs (peak xs) bound
    have count_pos : (0 : Rat) < xs.length := by exact_mod_cast positive
    exact (div_le_iff₀' count_pos).mpr total
  · exact nonneg

end Averages

section Outcomes

variable {trades : List (Trade Rat)}

theorem isWon_iff {t : Trade Rat} : t.isWon = true ↔ 0 < t.profit := decide_eq_true_iff

theorem isLost_iff {t : Trade Rat} : t.isLost = true ↔ t.profit < 0 := by
  have not_both : t.profit < 0 → t.isWon = false := by
    intro lost
    rw [← Bool.not_eq_true, isWon_iff]
    exact not_lt.mpr (le_of_lt lost)
  have lost_iff : t.isLost = true ↔ t.isWon = false ∧ t.profit < 0 := by
    rw [Trade.isLost, Bool.and_eq_true, Bool.not_eq_true']
    exact and_congr_right' decide_eq_true_iff
  rw [lost_iff]
  exact ⟨fun both => both.2, fun lost => ⟨not_both lost, lost⟩⟩

theorem wins_cons (t : Trade Rat) (rest : List (Trade Rat)) :
    wins (t :: rest) = if 0 < t.profit then t.profit :: wins rest else wins rest := by
  unfold wins
  split
  · rename_i won
    rw [List.filter_cons_of_pos (isWon_iff.mpr won), List.map_cons]
  · rename_i other
    rw [List.filter_cons_of_neg (mt isWon_iff.mp other)]

theorem losses_cons (t : Trade Rat) (rest : List (Trade Rat)) :
    losses (t :: rest) = if t.profit < 0 then -t.profit :: losses rest else losses rest := by
  unfold losses
  split
  · rename_i lost
    rw [List.filter_cons_of_pos (isLost_iff.mpr lost), List.map_cons, Rational.abs_eq,
      abs_of_neg lost]
  · rename_i other
    rw [List.filter_cons_of_neg (mt isLost_iff.mp other)]

/-- What was won less what was lost is what all trades came to. -/
theorem sum_wins_sub_losses (trades : List (Trade Rat)) :
    (wins trades).sum - (losses trades).sum = (trades.map Trade.profit).sum := by
  induction trades with
  | nil => exact sub_zero 0
  | cons t rest ih =>
    rw [wins_cons, losses_cons, List.map_cons, List.sum_cons, ← ih]
    rcases lt_trichotomy t.profit 0 with lost | even | won
    · rw [if_neg (not_lt.mpr (le_of_lt lost)), if_pos lost, List.sum_cons]
      ring
    · rw [even, if_neg (lt_irrefl 0), if_neg (lt_irrefl 0), zero_add]
    · rw [if_pos won, if_neg (not_lt.mpr (le_of_lt won)), List.sum_cons]
      ring

theorem pos_of_mem_wins {x : Rat} (member : x ∈ wins trades) : 0 < x := by
  obtain ⟨t, won, rfl⟩ := List.mem_map.mp member
  exact isWon_iff.mp (List.mem_filter.mp won).2

theorem pos_of_mem_losses {x : Rat} (member : x ∈ losses trades) : 0 < x := by
  obtain ⟨t, lost, rfl⟩ := List.mem_map.mp member
  rw [Rational.abs_eq]
  exact abs_pos.mpr (ne_of_lt (isLost_iff.mp (List.mem_filter.mp lost).2))

theorem sum_wins_pos_iff : 0 < (wins trades).sum ↔ ∃ t ∈ trades, 0 < t.profit := by
  constructor
  · intro positive
    by_contra none
    have empty : wins trades = [] := by
      rw [wins, List.map_eq_nil_iff, List.filter_eq_nil_iff]
      intro t member won
      exact none ⟨t, member, isWon_iff.mp won⟩
    rw [empty] at positive
    exact lt_irrefl 0 positive
  · rintro ⟨t, member, won⟩
    have listed : t.profit ∈ wins trades :=
      List.mem_map_of_mem (List.mem_filter.mpr ⟨member, isWon_iff.mpr won⟩)
    exact List.sum_pos (wins trades) (fun _ => pos_of_mem_wins) (List.ne_nil_of_mem listed)

theorem sum_losses_pos_iff : 0 < (losses trades).sum ↔ ∃ t ∈ trades, t.profit < 0 := by
  constructor
  · intro positive
    by_contra none
    have empty : losses trades = [] := by
      rw [losses, List.map_eq_nil_iff, List.filter_eq_nil_iff]
      intro t member lost
      exact none ⟨t, member, isLost_iff.mp lost⟩
    rw [empty] at positive
    exact lt_irrefl 0 positive
  · rintro ⟨t, member, lost⟩
    have listed : Arithmetic.abs t.profit ∈ losses trades :=
      List.mem_map_of_mem (List.mem_filter.mpr ⟨member, isLost_iff.mpr lost⟩)
    exact List.sum_pos (losses trades) (fun _ => pos_of_mem_losses) (List.ne_nil_of_mem listed)

end Outcomes

/-- The figures of some trades agree with the trades and with each other. -/
structure Reconciled (trades : List (Trade Rat)) (m : Metrics Rat) : Prop where
  deepest : IsGreatest (falls (trades.map Trade.profit)) m.maxDrawdown
  drawdown_nonneg : 0 ≤ m.maxDrawdown
  covers_loss : -m.totalProfit ≤ m.maxDrawdown
  total : m.totalProfit = accumulated (trades.map Trade.profit) trades.length
  split : m.totalProfit = m.tradesWon * m.averageWin - m.tradesLost * m.averageLoss
  won : m.tradesWon = trades.countP fun t => 0 < t.profit
  lost : m.tradesLost = trades.countP fun t => t.profit < 0
  averageWin_le : m.averageWin ≤ m.largestWin
  averageLoss_le : m.averageLoss ≤ m.largestLoss
  factor_of_lost : (∃ t ∈ trades, t.profit < 0) →
    ∃ factor, m.profitFactor = some factor ∧
      factor * m.tradesLost * m.averageLoss = m.tradesWon * m.averageWin
  factor_of_won : (¬∃ t ∈ trades, t.profit < 0) → (∃ t ∈ trades, 0 < t.profit) →
    m.profitFactor = none
  factor_of_even : (¬∃ t ∈ trades, t.profit < 0) → (¬∃ t ∈ trades, 0 < t.profit) →
    m.profitFactor = some 0

section Figures

variable (trades : List (Trade Rat))

theorem totalProfit_eq : (ofTrades trades).totalProfit = (trades.map Trade.profit).sum := by
  have started : (ofTrades trades).totalProfit = -0 + (trades.map Trade.profit).sum :=
    Rational.foldl_add_eq _ _
  rw [started, neg_zero, zero_add]

theorem won_mul_averageWin :
    (ofTrades trades).tradesWon * (ofTrades trades).averageWin = (wins trades).sum :=
  mul_average (wins trades)

theorem lost_mul_averageLoss :
    (ofTrades trades).tradesLost * (ofTrades trades).averageLoss = (losses trades).sum :=
  mul_average (losses trades)

theorem profitFactor_eq :
    (ofTrades trades).profitFactor =
      if 0 < (losses trades).sum then some ((wins trades).sum / (losses trades).sum)
      else if 0 < (wins trades).sum then none
      else some 0 := by
  rw [← sum_eq, ← sum_eq]
  rfl

/-- **The figures of a list of trades are reconciled**, whatever its length and whatever the
profits. -/
theorem ofTrades_reconciled : Reconciled trades (ofTrades trades) := by
  have total : (ofTrades trades).totalProfit =
      accumulated (trades.map Trade.profit) trades.length := by
    rw [totalProfit_eq, accumulated, ← List.length_map Trade.profit, List.take_length]
  have deepest := drawdown_isGreatest (trades.map Trade.profit)
  have length : (trades.map Trade.profit).length = trades.length := List.length_map _
  refine
    { deepest, total, drawdown_nonneg := ?_, covers_loss := ?_, split := ?_, won := ?_, lost := ?_,
      averageWin_le := average_le_peak (wins trades),
      averageLoss_le := average_le_peak (losses trades),
      factor_of_lost := ?_, factor_of_won := ?_, factor_of_even := ?_ }
  · exact deepest.2 ⟨0, 0, le_refl 0, Nat.zero_le _, (sub_self _).symm⟩
  · rw [total]
    exact deepest.2 ⟨0, trades.length, Nat.zero_le _, le_of_eq length.symm, (zero_sub _).symm⟩
  · rw [won_mul_averageWin, lost_mul_averageLoss, sum_wins_sub_losses, totalProfit_eq]
  · rw [List.countP_eq_length_filter]
    exact List.length_map _
  · have same : Trade.isLost = fun t : Trade Rat => decide (t.profit < 0) := by
      funext t
      exact Bool.eq_iff_iff.mpr (isLost_iff.trans decide_eq_true_iff.symm)
    rw [List.countP_eq_length_filter, ← same]
    exact List.length_map _
  · intro some_lost
    have positive := sum_losses_pos_iff.mpr some_lost
    refine ⟨(wins trades).sum / (losses trades).sum, ?_, ?_⟩
    · rw [profitFactor_eq, if_pos positive]
    · rw [mul_assoc, lost_mul_averageLoss, won_mul_averageWin]
      exact div_mul_cancel₀ _ (ne_of_gt positive)
  · intro none_lost some_won
    rw [profitFactor_eq, if_neg (mt sum_losses_pos_iff.mp none_lost),
      if_pos (sum_wins_pos_iff.mpr some_won)]
  · intro none_lost none_won
    rw [profitFactor_eq, if_neg (mt sum_losses_pos_iff.mp none_lost),
      if_neg (mt sum_wins_pos_iff.mp none_won)]

end Figures

end Metrics

end TradingRules
