import Mathlib.Data.Int.Log
import Mathlib.Data.Rat.Floor
import Mathlib.Tactic.Linarith
import Mathlib.Tactic.Positivity
import Mathlib.Tactic.Ring

/-!
# Rounding to binary64

What a number that is not negative is rounded to, if there were no greatest exponent: a multiple of
a power of two that leaves 53 binary digits, or of the least one there is, the nearest such multiple
and the even one of two. Rounding keeps the order, leaves alone what has 53 digits or fewer and errs
by at most half of the last digit.
-/

namespace TradingRules

namespace Binary64

/-- The nearest integer, and of two the even one. -/
def roundEven (x : Rat) : Int :=
  let below := ⌊x⌋
  if 2 * (x - below) < 1 then below
  else if 1 < 2 * (x - below) then below + 1
  else below + below % 2

theorem roundEven_intCast (n : Int) : roundEven n = n := by
  simp [roundEven]

theorem floor_le_roundEven (x : Rat) : ⌊x⌋ ≤ roundEven x ∧ roundEven x ≤ ⌊x⌋ + 1 := by
  unfold roundEven
  dsimp only
  split
  · omega
  · split <;> omega

theorem abs_roundEven_sub_le (x : Rat) : |roundEven x - x| ≤ 1 / 2 := by
  have floor_le := Int.floor_le x
  have lt_floor := Int.lt_floor_add_one x
  unfold roundEven
  dsimp only
  split
  · rename_i near
    rw [abs_le]
    constructor <;> linarith
  · split
    · rename_i far
      push_cast
      rw [abs_le]
      constructor <;> linarith
    · rename_i not_near not_far
      -- Halfway, whichever of the two integers it is, the distance is one half.
      have half : 2 * (x - ⌊x⌋) = 1 := le_antisymm (not_lt.mp not_far) (not_lt.mp not_near)
      rcases Int.emod_two_eq_zero_or_one ⌊x⌋ with even | odd
      · rw [even, add_zero, abs_le]
        constructor <;> linarith
      · rw [odd]
        push_cast
        rw [abs_le]
        constructor <;> linarith

theorem roundEven_mono {x y : Rat} (ordered : x ≤ y) : roundEven x ≤ roundEven y := by
  rcases lt_or_eq_of_le (Int.floor_le_floor ordered) with below | same
  · have first := (floor_le_roundEven x).2
    have second := (floor_le_roundEven y).1
    omega
  · -- In one unit the greater fraction is not rounded down where the smaller one is rounded up.
    unfold roundEven
    rw [same]
    dsimp only
    split_ifs <;> first | omega | (exfalso; linarith)

theorem le_roundEven {n : Int} {x : Rat} (below : n ≤ x) : n ≤ roundEven x := by
  rw [← roundEven_intCast n]
  exact roundEven_mono below

theorem roundEven_le {n : Int} {x : Rat} (above : x ≤ n) : roundEven x ≤ n := by
  rw [← roundEven_intCast n]
  exact roundEven_mono above

/-- The exponent of the last digit of a number. -/
def place (q : Rat) : Int := max (Int.log 2 q - 52) (-1074)

def nearest (q : Rat) : Rat := roundEven (q / 2 ^ place q) * 2 ^ place q

theorem unit_pos (e : Int) : (0 : Rat) < 2 ^ e := zpow_pos (by norm_num) e

theorem two_ne_zero : (2 : Rat) ≠ 0 := by norm_num

theorem nearest_zero : nearest 0 = 0 := by
  have zero : roundEven 0 = 0 := roundEven_intCast 0
  rw [nearest, zero_div, zero, Int.cast_zero, zero_mul]

theorem place_mono {p q : Rat} (positive : 0 < p) (ordered : p ≤ q) : place p ≤ place q := by
  have := Int.log_mono_right (b := 2) positive ordered
  unfold place
  omega

/-- A number has at most 53 digits before its last place. -/
theorem lt_of_place (q : Rat) : q < 2 ^ (place q + 53) := by
  have below : q < 2 ^ (Int.log 2 q + 1) := by
    exact_mod_cast Int.lt_zpow_succ_log_self (by norm_num : 1 < 2) q
  refine lt_of_lt_of_le below (zpow_le_zpow_right₀ (by norm_num) ?_)
  unfold place
  omega

/-- Above the least place a number has at least 53 digits. -/
theorem le_of_place {q : Rat} (positive : 0 < q) (above : -1074 < place q) :
    2 ^ (place q + 52) ≤ q := by
  have least : (2 : Rat) ^ Int.log 2 q ≤ q := by
    exact_mod_cast Int.zpow_log_le_self (by norm_num : 1 < 2) positive
  have exponent : place q + 52 = Int.log 2 q := by
    unfold place at above ⊢
    omega
  rw [exponent]
  exact least

theorem roundEven_digits_le (q : Rat) : roundEven (q / 2 ^ place q) ≤ 2 ^ 53 := by
  refine roundEven_le ?_
  rw [div_le_iff₀ (unit_pos _)]
  have below := le_of_lt (lt_of_place q)
  rw [add_comm, zpow_add₀ two_ne_zero] at below
  exact_mod_cast below

theorem le_roundEven_digits {q : Rat} (positive : 0 < q) (above : -1074 < place q) :
    2 ^ 52 ≤ roundEven (q / 2 ^ place q) := by
  refine le_roundEven ?_
  rw [le_div_iff₀ (unit_pos _)]
  have below := le_of_place positive above
  rw [add_comm, zpow_add₀ two_ne_zero] at below
  exact_mod_cast below

theorem nearest_le (q : Rat) : nearest q ≤ 2 ^ (place q + 53) := by
  have rounded : ((roundEven (q / 2 ^ place q) : Int) : Rat) ≤ 2 ^ (53 : Int) := by
    exact_mod_cast roundEven_digits_le q
  calc nearest q ≤ 2 ^ (53 : Int) * 2 ^ place q :=
        mul_le_mul_of_nonneg_right rounded (le_of_lt (unit_pos _))
    _ = 2 ^ (place q + 53) := by rw [← zpow_add₀ two_ne_zero, add_comm]

theorem le_nearest {q : Rat} (positive : 0 < q) (above : -1074 < place q) :
    2 ^ (place q + 52) ≤ nearest q := by
  have rounded : (2 : Rat) ^ (52 : Int) ≤ ((roundEven (q / 2 ^ place q) : Int) : Rat) := by
    exact_mod_cast le_roundEven_digits positive above
  calc (2 : Rat) ^ (place q + 52) = 2 ^ (52 : Int) * 2 ^ place q := by
        rw [← zpow_add₀ two_ne_zero, add_comm]
    _ ≤ nearest q := mul_le_mul_of_nonneg_right rounded (le_of_lt (unit_pos _))

theorem nearest_nonneg {q : Rat} (nonneg : 0 ≤ q) : 0 ≤ nearest q := by
  have rounded : 0 ≤ roundEven (q / 2 ^ place q) :=
    le_roundEven (by exact_mod_cast div_nonneg nonneg (le_of_lt (unit_pos _)))
  exact mul_nonneg (by exact_mod_cast rounded) (le_of_lt (unit_pos _))

theorem nearest_mono {p q : Rat} (nonneg : 0 ≤ p) (ordered : p ≤ q) : nearest p ≤ nearest q := by
  rcases eq_or_lt_of_le nonneg with rfl | positive
  · rw [nearest_zero]
    exact nearest_nonneg ordered
  · rcases eq_or_lt_of_le (place_mono positive ordered) with same | below
    · -- With one last place the integers before it are rounded in order.
      have digits : p / 2 ^ place p ≤ q / 2 ^ place q := by
        rw [same]
        exact div_le_div_of_nonneg_right ordered (le_of_lt (unit_pos _))
      have rounded : ((roundEven (p / 2 ^ place p) : Int) : Rat) ≤ roundEven (q / 2 ^ place q) := by
        exact_mod_cast roundEven_mono digits
      unfold nearest
      rw [same] at rounded ⊢
      exact mul_le_mul_of_nonneg_right rounded (le_of_lt (unit_pos _))
    · -- Otherwise a power of two separates them.
      have above : -1074 < place q := lt_of_le_of_lt (le_max_right _ _) below
      calc nearest p ≤ 2 ^ (place p + 53) := nearest_le p
        _ ≤ 2 ^ (place q + 52) := zpow_le_zpow_right₀ (by norm_num) (by omega)
        _ ≤ nearest q := le_nearest (lt_of_lt_of_le positive ordered) above

theorem abs_nearest_sub_le (q : Rat) : |nearest q - q| ≤ 2 ^ place q / 2 := by
  have unit := unit_pos (place q)
  have digits : q = q / 2 ^ place q * 2 ^ place q := (div_mul_cancel₀ q (ne_of_gt unit)).symm
  have scaled : nearest q - q = (roundEven (q / 2 ^ place q) - q / 2 ^ place q) * 2 ^ place q := by
    rw [sub_mul, ← digits, nearest]
  rw [scaled, abs_mul, abs_of_pos unit, div_eq_mul_one_div (2 ^ place q) 2, mul_comm (2 ^ place q)]
  exact mul_le_mul_of_nonneg_right (abs_roundEven_sub_le _) (le_of_lt unit)

/-- A multiple of a place that is no finer than its own last one is left alone. -/
theorem nearest_of_multiple {q : Rat} {n : Nat} {e : Int} (multiple : q = n * 2 ^ e)
    (coarse : place q ≤ e) : nearest q = q := by
  have whole : q / 2 ^ place q = ((n * 2 ^ (e - place q).toNat : Nat) : Int) := by
    have exponent : e = (e - place q).toNat + place q := by omega
    rw [div_eq_iff (ne_of_gt (unit_pos _)), multiple]
    conv => lhs; rw [exponent, zpow_add₀ two_ne_zero, zpow_natCast]
    push_cast
    rw [← multiple, mul_assoc]
  rw [nearest, whole, roundEven_intCast, ← whole,
    div_mul_cancel₀ q (ne_of_gt (unit_pos _))]

/-- What 53 digits can write is left alone. -/
theorem nearest_of_digits {n : Nat} {e : Int} (digits : n < 2 ^ 53) (least : -1074 ≤ e) :
    nearest (n * 2 ^ e) = n * 2 ^ e := by
  rcases Nat.eq_zero_or_pos n with rfl | positive
  · rw [Nat.cast_zero, zero_mul, nearest_zero]
  · refine nearest_of_multiple rfl ?_
    have below : (n : Rat) * 2 ^ e < 2 ^ (e + 53) := by
      rw [add_comm, zpow_add₀ two_ne_zero]
      refine mul_lt_mul_of_pos_right ?_ (unit_pos e)
      exact_mod_cast digits
    have log : Int.log 2 ((n : Rat) * 2 ^ e) < e + 53 := by
      refine (Int.lt_zpow_iff_log_lt (by norm_num) ?_).mp (by exact_mod_cast below)
      exact mul_pos (by exact_mod_cast positive) (unit_pos e)
    unfold place
    omega

/-- Short of half a unit above the next place after a whole number, nothing is rounded beyond it. -/
theorem nearest_le_next {n : Nat} {q : Rat} (positive : 0 < n) (small : n < 2 ^ 52) (above : n ≤ q)
    (near : q < n + 2 ^ place n + 2 ^ place n / 2) : nearest q ≤ n + 2 ^ place n := by
  have log_n : Int.log 2 (n : Rat) = Nat.log 2 n := Int.log_natCast 2 n
  have log_small : Nat.log 2 n < 52 := Nat.log_lt_of_lt_pow (Nat.ne_of_gt positive) small
  have place_n : place n = (Nat.log 2 n : Int) - 52 := by
    unfold place
    omega
  have unit := unit_pos (place n)
  have half : (2 : Rat) ^ place n ≤ 1 / 2 := by
    calc (2 : Rat) ^ place n ≤ 2 ^ (-1 : Int) := zpow_le_zpow_right₀ (by norm_num) (by omega)
      _ = 1 / 2 := by norm_num
  -- The number has as many digits before its last place as the whole one.
  have top : q < 2 ^ ((Nat.log 2 n : Int) + 1) := by
    have whole : (n : Rat) + 1 ≤ 2 ^ ((Nat.log 2 n : Int) + 1) := by
      exact_mod_cast Nat.lt_pow_succ_log_self (by norm_num) n
    linarith
  have place_q : place q = place n := by
    have q_pos : 0 < q := lt_of_lt_of_le (by exact_mod_cast positive) above
    have lower := place_mono (by exact_mod_cast positive) above
    have upper : Int.log 2 q < (Nat.log 2 n : Int) + 1 :=
      (Int.lt_zpow_iff_log_lt (by norm_num) q_pos).mp (by exact_mod_cast top)
    unfold place at lower place_n ⊢
    omega
  obtain ⟨m, digits⟩ : ∃ m : Nat, (n : Rat) = m * 2 ^ place n := by
    refine ⟨n * 2 ^ (-place n).toNat, ?_⟩
    have exponent : ((-place n).toNat : Int) + place n = 0 := by omega
    rw [Nat.cast_mul, Nat.cast_pow, Nat.cast_ofNat, mul_assoc, ← zpow_natCast,
      ← zpow_add₀ two_ne_zero, exponent, zpow_zero, mul_one]
  have scaled : q / 2 ^ place n < m + 1 + 1 / 2 := by
    rw [div_lt_iff₀ unit, add_mul, add_mul, ← digits, one_mul, div_mul_eq_mul_div, one_mul]
    exact near
  have rounded : roundEven (q / 2 ^ place n) ≤ (m : Int) + 1 := by
    have error := (abs_le.mp (abs_roundEven_sub_le (q / 2 ^ place n))).2
    have below : ((roundEven (q / 2 ^ place n) : Int) : Rat) < m + 1 + 1 := by linarith
    exact Int.le_of_lt_add_one (by exact_mod_cast below)
  rw [nearest, place_q]
  calc ((roundEven (q / 2 ^ place n) : Int) : Rat) * 2 ^ place n
      ≤ (m + 1) * 2 ^ place n :=
        mul_le_mul_of_nonneg_right (by exact_mod_cast rounded) (le_of_lt unit)
    _ = n + 2 ^ place n := by rw [add_mul, one_mul, ← digits]

/-- Rounding a multiple of the least place errs by at most one part in two to the 53. -/
theorem abs_nearest_sub_le_relative {n : Nat} {e : Int} (least : -1074 ≤ e) :
    |nearest (n * 2 ^ e) - n * 2 ^ e| ≤ n * 2 ^ e * 2 ^ (-53 : Int) := by
  rcases Nat.eq_zero_or_pos n with rfl | nonzero
  · rw [Nat.cast_zero, zero_mul, nearest_zero, sub_self, abs_zero, zero_mul]
  · have positive : (0 : Rat) < n * 2 ^ e := mul_pos (by exact_mod_cast nonzero) (unit_pos e)
    rcases le_or_gt (place (n * 2 ^ e)) (-1074) with coarse | above
    · rw [nearest_of_multiple rfl (le_trans coarse least), sub_self, abs_zero]
      exact mul_nonneg (le_of_lt positive) (le_of_lt (unit_pos _))
    · refine le_trans (abs_nearest_sub_le _) ?_
      have digits := le_of_place positive above
      calc (2 : Rat) ^ place (n * 2 ^ e) / 2
          = 2 ^ (place (n * 2 ^ e) + 52) * 2 ^ (-53 : Int) := by
            rw [← zpow_add₀ two_ne_zero, div_eq_mul_inv, ← zpow_neg_one, ← zpow_add₀ two_ne_zero]
            congr 1
            omega
        _ ≤ n * 2 ^ e * 2 ^ (-53 : Int) :=
            mul_le_mul_of_nonneg_right digits (le_of_lt (unit_pos _))

end Binary64

end TradingRules
