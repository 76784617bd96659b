import Mathlib.Algebra.Order.BigOperators.Group.List
import Mathlib.Algebra.Order.Field.Rat
import Mathlib.Tactic.Linarith
import Mathlib.Tactic.Ring
import TradingRules.Arithmetic

/-!
# Exact arithmetic

Over the rationals the arithmetic of prices is that of an ordered field: the larger of two numbers
is their maximum, and numbers added up one after the other are their sum.
-/

namespace TradingRules

namespace Rational

open Arithmetic

/-- Keeping the greater of two numbers, the earlier one where they are equal. -/
theorem if_gt_eq_max (top q : Rat) : (if q > top then q else top) = max top q := by
  split
  · rename_i above
    exact (max_eq_right (le_of_lt above)).symm
  · rename_i below
    exact (max_eq_left (not_lt.mp below)).symm

theorem abs_eq (q : Rat) : Arithmetic.abs q = |q| := by
  change (if q < 0 then -q else q) = |q|
  split
  · rename_i below
    rw [abs_of_neg below]
  · rename_i above
    rw [abs_of_nonneg (not_lt.mp above)]

theorem larger_eq (p q : Rat) : larger p q = max p q := by
  unfold larger
  by_cases below : q < p
  · rw [if_pos below, max_eq_left (le_of_lt below)]
  · rw [if_neg below, if_pos (le_refl q), max_eq_right (not_lt.mp below)]

theorem foldl_add_eq (xs : List Rat) (start : Rat) :
    xs.foldl (· + ·) start = start + xs.sum := by
  induction xs generalizing start with
  | nil => rw [List.foldl_nil, List.sum_nil, add_zero]
  | cons x rest ih => rw [List.foldl_cons, ih, List.sum_cons, add_assoc]

end Rational

end TradingRules
