import TradingRules.Proofs.Extents
import TradingRules.Trade

/-!
# Figures without an order

How many trades there are of each kind, how long they were held and the largest profit and loss do
not depend on the order in which the trades are listed. Counts and sums of counts are those of a
collection. The largest of some numbers above zero is the greatest of them, and a collection has one
greatest number: two numbers above zero that are not in order are the same bits. A profit that is no
number is neither above nor below zero and so is never compared with a largest one.
-/

namespace TradingRules

namespace Metrics

/-- The greatest of some numbers, and zero if there are none. -/
inductive Top : List Float → Float → Prop
  | nothing : Top [] 0
  | greatest {xs : List Float} {top : Float} (member : top ∈ xs) (bound : ∀ x ∈ xs, x ≤ top) :
      Top xs top

section Tops

variable {xs ys : List Float} {top : Float}

theorem Top.isNaN (h : Top xs top) : top.isNaN = false := by
  cases h with
  | nothing => decide
  | greatest member bound => exact (numbers_of_le (bound top member)).1

/-- One more number above zero replaces the greatest one if it is greater. -/
theorem Top.step (h : Top xs top) {x : Float} (positive : 0 < x) :
    Top (xs ++ [x]) (if x > top then x else top) := by
  have number : x.isNaN = false := (numbers_of_lt positive).2
  have last : x ∈ xs ++ [x] := List.mem_append_right xs List.mem_cons_self
  cases h with
  | nothing =>
    rw [if_pos positive]
    apply Top.greatest last
    intro y member
    obtain rfl := List.mem_singleton.mp member
    exact float_le_refl number
  | greatest member bound =>
    have top_number := (numbers_of_le (bound top member)).1
    by_cases above : x > top
    · rw [if_pos above]
      apply Top.greatest last
      intro y listed
      rcases List.mem_append.mp listed with old | new
      · exact float_le_trans (bound y old) (float_le_of_lt above)
      · obtain rfl := List.mem_singleton.mp new
        exact float_le_refl number
    · rw [if_neg above]
      apply Top.greatest (List.mem_append_left [x] member)
      intro y listed
      rcases List.mem_append.mp listed with old | new
      · exact bound y old
      · obtain rfl := List.mem_singleton.mp new
        exact (le_iff_not_lt number top_number).mpr above

theorem peak_top (positive : ∀ x ∈ xs, 0 < x) : Top xs (peak xs) := by
  induction xs using List.reverseRecOn with
  | nil => exact .nothing
  | append_singleton xs x ih =>
    have before : Top xs (peak xs) := by
      apply ih
      intro y member
      exact positive y (List.mem_append_left [x] member)
    have last : 0 < x := positive x (List.mem_append_right xs List.mem_cons_self)
    have kept := before.step last
    rwa [peak, List.foldl_append]

/-- A collection of numbers above zero has one greatest number. -/
theorem Top.unique (h : Top xs top) {other : Float} (h' : Top ys other) (same : xs.Perm ys)
    (positive : ∀ x ∈ xs, 0 < x) : top = other := by
  cases h with
  | nothing =>
    cases h' with
    | nothing => rfl
    | greatest member bound =>
      rw [← same.nil_eq] at member
      cases member
  | greatest member bound =>
    cases h' with
    | nothing =>
      rw [same.eq_nil] at member
      cases member
    | greatest member' bound' =>
      apply float_le_antisymm
      · exact bound' top (same.mem_iff.mp member)
      · exact bound other (same.mem_iff.mpr member')
      · exact positive top member

theorem peak_perm (same : xs.Perm ys) (positive : ∀ x ∈ xs, 0 < x) : peak xs = peak ys := by
  have positive' : ∀ y ∈ ys, 0 < y := by
    intro y member
    exact positive y (same.mem_iff.mpr member)
  exact (peak_top positive).unique (peak_top positive') same positive

end Tops

section Trades

theorem abs_pos_of_neg {x : Float} (below : x < 0) : 0 < x.abs := by
  have number : x.isNaN = false := (numbers_of_lt below).1
  have zero : extent 0 = 0 := rfl
  have negative : extent x < 0 := (lt_iff_extent number rfl).mp below
  apply (lt_iff_extent rfl ((isNaN_float_abs x).trans number)).mpr
  rw [extent_float_abs, zero]
  exact abs_pos.mpr (ne_of_lt negative)

variable {trades other : List (Trade Float)}

theorem isLost_iff_neg {t : Trade Float} : t.isLost = true ↔ t.profit < 0 := by
  have lost_iff : t.isLost = true ↔ t.isWon = false ∧ t.profit < 0 := by
    rw [Trade.isLost, Bool.and_eq_true, Bool.not_eq_true']
    exact and_congr_right' decide_eq_true_iff
  rw [lost_iff]
  constructor
  · intro both
    exact both.2
  · intro lost
    exact ⟨decide_eq_false (float_lt_asymm lost), lost⟩

theorem wins_eq (trades : List (Trade Float)) :
    wins trades = (trades.map Trade.profit).filter (0 < ·) := by
  rw [wins, List.filter_map]
  rfl

theorem losses_eq (trades : List (Trade Float)) :
    losses trades = ((trades.map Trade.profit).filter (· < 0)).map Float.abs := by
  have lost : Trade.isLost = fun t : Trade Float => decide (t.profit < 0) := by
    funext t
    exact Bool.eq_iff_iff.mpr (isLost_iff_neg.trans decide_eq_true_iff.symm)
  rw [losses, lost, List.filter_map, List.map_map]
  rfl

theorem wins_pos : ∀ x ∈ wins trades, 0 < x := by
  intro x member
  rw [wins_eq] at member
  exact of_decide_eq_true (List.mem_filter.mp member).2

theorem losses_pos : ∀ x ∈ losses trades, 0 < x := by
  intro x member
  rw [losses_eq] at member
  obtain ⟨profit, lost, rfl⟩ := List.mem_map.mp member
  exact abs_pos_of_neg (of_decide_eq_true (List.mem_filter.mp lost).2)

/-- The figures that two lists of trades have in common if they list the same trades. -/
structure SameFigures (m n : Metrics Float) : Prop where
  totalTrades : m.totalTrades = n.totalTrades
  tradesWon : m.tradesWon = n.tradesWon
  tradesLost : m.tradesLost = n.tradesLost
  tradesEven : m.tradesEven = n.tradesEven
  winRate : m.winRate = n.winRate
  largestWin : m.largestWin = n.largestWin
  largestLoss : m.largestLoss = n.largestLoss
  averageHolding : m.averageHolding = n.averageHolding

theorem ofTrades_perm (same : trades.Perm other) :
    SameFigures (ofTrades trades) (ofTrades other) := by
  have won : (wins trades).Perm (wins other) := (same.filter _).map _
  have lost : (losses trades).Perm (losses other) := (same.filter _).map _
  have held : (trades.map Trade.holdingBars).foldl (· + ·) 0 =
      (other.map Trade.holdingBars).foldl (· + ·) 0 := (same.map _).foldl_eq 0
  constructor
  · exact same.length_eq
  · exact won.length_eq
  · exact lost.length_eq
  · exact same.countP_eq _
  · simp only [ofTrades, won.length_eq, same.length_eq]
  · exact peak_perm won wins_pos
  · exact peak_perm lost losses_pos
  · simp only [ofTrades, held, same.length_eq]

/-- Trades may be listed in any order, whatever their profits are. The largest win is the greatest
profit above zero and the largest loss the greatest size of one below zero; either is zero where
there is none, and neither is ever no number. -/
theorem ofTrades_order_free (trades : List (Trade Float)) :
    (∀ other, trades.Perm other → SameFigures (ofTrades trades) (ofTrades other)) ∧
    Top ((trades.map Trade.profit).filter (0 < ·)) (ofTrades trades).largestWin ∧
    Top (((trades.map Trade.profit).filter (· < 0)).map Float.abs) (ofTrades trades).largestLoss ∧
    (ofTrades trades).largestWin.isNaN = false ∧ (ofTrades trades).largestLoss.isNaN = false := by
  have won : Top (wins trades) (ofTrades trades).largestWin := peak_top wins_pos
  have lost : Top (losses trades) (ofTrades trades).largestLoss := peak_top losses_pos
  refine ⟨fun other => ofTrades_perm, ?_, ?_, won.isNaN, lost.isNaN⟩
  · rw [← wins_eq]
    exact won
  · rw [← losses_eq]
    exact lost

/-- A profit that is no number between two wins, and two losses of which one is infinite. -/
theorem ofTrades_order_free_undefined_profit :
    let trade (profit : Float) : Trade Float := ⟨3, 1, 100.0, 100.0, profit⟩
    let listed := [trade 2.0, trade (0.0 / 0.0), trade 5.0, trade (-0.0), trade (-1.0 / 0.0),
      trade (-4.0)]
    listed.Perm listed.reverse ∧
      (ofTrades listed.reverse).winRate = (ofTrades listed).winRate ∧
      (ofTrades listed.reverse).largestWin = 5.0 ∧
      (ofTrades listed.reverse).largestLoss = 1.0 / 0.0 := by
  intro trade listed
  have reversed : listed.Perm listed.reverse := listed.reverse_perm.symm
  obtain ⟨alike, -⟩ := ofTrades_order_free listed
  have same := alike listed.reverse reversed
  have win : (ofTrades listed).largestWin = 5.0 := by decide
  have loss : (ofTrades listed).largestLoss = 1.0 / 0.0 := by decide
  exact ⟨reversed, same.winRate.symm, same.largestWin.symm.trans win,
    same.largestLoss.symm.trans loss⟩

end Trades

end Metrics

end TradingRules
