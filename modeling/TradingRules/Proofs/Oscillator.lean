import TradingRules.Proofs.Methods
import TradingRules.Proofs.RoundedMeans

/-!
# The stochastic oscillator between its ends

The extremes of a window are the highest high and the lowest low of its quotes, and the close of its
newest quote lies between them; so what is divided is never more than a hundred times the divisor,
but for one rounding. The quotient is therefore at least 0 and at most the first number above 100,
unless a hundred times the distance from the lowest low is too great for a number.
-/

namespace TradingRules

open Unpacked Binary64

/-- Finite prices, the close between the low and the high. -/
structure Quote.Priced (q : Quote) : Prop where
  high : q.high.isFinite = true
  low : q.low.isFinite = true
  close : q.close.isFinite = true
  low_le_close : q.low ≤ q.close
  close_le_high : q.close ≤ q.high

namespace Indicator

section Extremes

open Arithmetic (larger smaller)

theorem larger_eq_ite (x : Float) {y : Float} (hy : y.isNaN = false) :
    larger x y = if y < x then x else y := by
  unfold larger
  rw [if_pos (float_le_refl hy)]

theorem smaller_eq_ite (x : Float) {y : Float} (hy : y.isNaN = false) :
    smaller x y = if x < y then x else y := by
  unfold smaller
  rw [if_pos (float_le_refl hy)]

theorem larger_of_numbers {x y : Float} (hx : x.isNaN = false) (hy : y.isNaN = false) :
    x ≤ larger x y ∧ y ≤ larger x y ∧ (larger x y = x ∨ larger x y = y) := by
  rw [larger_eq_ite x hy]
  split
  · rename_i above
    exact ⟨float_le_refl hx, float_le_of_lt above, .inl rfl⟩
  · rename_i not_above
    exact ⟨(le_iff_not_lt hx hy).mpr not_above, float_le_refl hy, .inr rfl⟩

theorem smaller_of_numbers {x y : Float} (hx : x.isNaN = false) (hy : y.isNaN = false) :
    smaller x y ≤ x ∧ smaller x y ≤ y ∧ (smaller x y = x ∨ smaller x y = y) := by
  rw [smaller_eq_ite x hy]
  split
  · rename_i below
    exact ⟨float_le_refl hx, float_le_of_lt below, .inl rfl⟩
  · rename_i not_below
    exact ⟨(le_iff_not_lt hy hx).mpr not_below, float_le_refl hy, .inr rfl⟩

/-- The highest high and the lowest low of some quotes. -/
structure Extremes (window : List Quote) (lowest highest : Float) : Prop where
  low_mem : ∃ q ∈ window, q.low = lowest
  lowest_le : ∀ q ∈ window, lowest ≤ q.low
  high_mem : ∃ q ∈ window, q.high = highest
  le_highest : ∀ q ∈ window, q.high ≤ highest

variable {window : List Quote} {extremes : Float × Float} {q : Quote}

/-- The first quote takes the place of the infinities. -/
theorem extremes_first (priced : q.Priced) :
    Extremes [q] (widen (-1.0 / 0.0, 1.0 / 0.0) q).2 (widen (-1.0 / 0.0, 1.0 / 0.0) q).1 := by
  have bottom : extent (-1.0 / 0.0) = -beyond := rfl
  have top : extent (1.0 / 0.0) = beyond := rfl
  have high_number := isNaN_false_of_isFinite priced.high
  have low_number := isNaN_false_of_isFinite priced.low
  have high_inside := (isFinite_iff_extent high_number).mp priced.high
  have low_inside := (isFinite_iff_extent low_number).mp priced.low
  rw [abs_lt] at high_inside low_inside
  have not_below : ¬ q.high < -1.0 / 0.0 := by
    rw [lt_iff_extent high_number rfl, bottom]
    exact not_lt.mpr (le_of_lt high_inside.1)
  have not_above : ¬ 1.0 / 0.0 < q.low := by
    rw [lt_iff_extent rfl low_number, top]
    exact not_lt.mpr (le_of_lt low_inside.2)
  rw [Indicator.widen, larger_eq_ite _ high_number, smaller_eq_ite _ low_number, if_neg not_below,
    if_neg not_above]
  constructor
  · exact ⟨q, List.mem_singleton_self q, rfl⟩
  · intro r member
    rw [List.mem_singleton.mp member]
    exact float_le_refl low_number
  · exact ⟨q, List.mem_singleton_self q, rfl⟩
  · intro r member
    rw [List.mem_singleton.mp member]
    exact float_le_refl high_number

/-- One more quote widens the extremes by its high and its low. -/
theorem Extremes.widen (held : Extremes window extremes.2 extremes.1)
    (before : ∀ r ∈ window, r.Priced) (priced : q.Priced) :
    Extremes (window ++ [q]) (Indicator.widen extremes q).2 (Indicator.widen extremes q).1 := by
  obtain ⟨⟨l, l_mem, l_low⟩, lowest_le, ⟨h, h_mem, h_high⟩, le_highest⟩ := held
  have highest_number : extremes.1.isNaN = false := by
    rw [← h_high]
    exact isNaN_false_of_isFinite (before h h_mem).high
  have lowest_number : extremes.2.isNaN = false := by
    rw [← l_low]
    exact isNaN_false_of_isFinite (before l l_mem).low
  obtain ⟨highest_le, high_le, highest_eq⟩ :=
    larger_of_numbers highest_number (isNaN_false_of_isFinite priced.high)
  obtain ⟨le_lowest, le_low, lowest_eq⟩ :=
    smaller_of_numbers lowest_number (isNaN_false_of_isFinite priced.low)
  have newest : q ∈ window ++ [q] := List.mem_append_right _ (List.mem_singleton_self q)
  refine ⟨?_, ?_, ?_, ?_⟩
  · rcases lowest_eq with same | lower
    · exact ⟨l, List.mem_append_left _ l_mem, l_low.trans same.symm⟩
    · exact ⟨q, newest, lower.symm⟩
  · intro r member
    rcases List.mem_append.mp member with member | member
    · exact float_le_trans le_lowest (lowest_le r member)
    · rw [List.mem_singleton.mp member]
      exact le_low
  · rcases highest_eq with same | higher
    · exact ⟨h, List.mem_append_left _ h_mem, h_high.trans same.symm⟩
    · exact ⟨q, newest, higher.symm⟩
  · intro r member
    rcases List.mem_append.mp member with member | member
    · exact float_le_trans (le_highest r member) highest_le
    · rw [List.mem_singleton.mp member]
      exact high_le

theorem Extremes.foldl (held : Extremes window extremes.2 extremes.1) {older : List Quote}
    (priced : ∀ r ∈ window ++ older, r.Priced) :
    Extremes (window ++ older) (older.foldl Indicator.widen extremes).2
      (older.foldl Indicator.widen extremes).1 := by
  induction older generalizing window extremes with
  | nil =>
    rw [List.append_nil]
    exact held
  | cons q older ih =>
    have longer : window ++ q :: older = (window ++ [q]) ++ older := List.append_cons window q older
    rw [longer] at priced ⊢
    refine ih (held.widen (fun r member => priced r ?_) (priced q ?_)) priced
    · exact List.mem_append_left _ (List.mem_append_left _ member)
    · exact List.mem_append_left _ (List.mem_append_right _ List.mem_cons_self)

end Extremes

section Percents

/-- Where a close lies between two prices, in percent; halfway if they are equal. -/
def percentBetween (lowest highest close : Float) : Float :=
  if highest - lowest == 0.0 then 50.0 else 100.0 * (close - lowest) / (highest - lowest)

/-- It is finite if a hundred times the distance from the lowest price is, and then at least 0 and
at most the first number above 100: 0 at the lowest price, and at the highest one 100 but for a unit
in the last place. -/
structure Placed (lowest highest close percent : Float) : Prop where
  finite_iff : percent.isFinite = true ↔ (100.0 * (close - lowest)).isFinite = true
  within : percent.isFinite = true → 0.0 ≤ percent ∧ percent ≤ 100.00000000000001
  bottom : lowest < highest → close == lowest → percent == 0.0
  top : lowest < highest → close == highest → percent.isFinite = true → 99.99999999999999 ≤ percent

theorem extent_of_digits {x : Float} {m : Nat} {e : Int} {positive : 0 < m}
    (unpacked : x.toModel.unpack = .finite .positive m e positive) : extent x = m * 2 ^ e := by
  rw [extent, unpacked]
  rfl

theorem extent_hundred : extent 100.0 = 100 := by
  have unpacked : (100.0 : Float).toModel.unpack =
      .finite .positive 7036874417766400 (-46) (by decide) := rfl
  rw [extent_of_digits unpacked]
  norm_num

theorem extent_above_hundred : extent 100.00000000000001 = 100 + 2 ^ (-46 : Int) := by
  have unpacked : (100.00000000000001 : Float).toModel.unpack =
      .finite .positive 7036874417766401 (-46) (by decide) := rfl
  rw [extent_of_digits unpacked]
  norm_num

theorem extent_second_above_hundred : extent 100.00000000000003 = 100 + 2 * 2 ^ (-46 : Int) := by
  have unpacked : (100.00000000000003 : Float).toModel.unpack =
      .finite .positive 7036874417766402 (-46) (by decide) := rfl
  rw [extent_of_digits unpacked]
  norm_num

theorem within_above_hundred : Within (100 + 2 ^ (-46 : Int)) 100.00000000000001 := by
  refine ⟨rfl, ?_, le_of_eq extent_above_hundred⟩
  rw [extent_above_hundred]
  positivity

theorem extent_below_hundred : extent 99.99999999999999 = 7036874417766399 * 2 ^ (-46 : Int) := by
  have unpacked : (99.99999999999999 : Float).toModel.unpack =
      .finite .positive 7036874417766399 (-46) (by decide) := rfl
  rw [extent_of_digits unpacked]
  norm_num

/-- Finite numbers are multiples of the least one. -/
theorem extent_whole {x : Float} (finite : x.isFinite = true) :
    ∃ n : Int, extent x = n * 2 ^ (-1074 : Int) := by
  have packed := packed_float x
  change x.toModel.unpack.isFinite = true at finite
  unfold extent
  cases unpacked : x.toModel.unpack with
  | notANumber =>
    rw [unpacked] at finite
    cases finite
  | infinity s =>
    rw [unpacked] at finite
    cases finite
  | zero s => exact ⟨0, by rw [Int.cast_zero, zero_mul]; rfl⟩
  | finite s m e positive =>
    rw [unpacked] at packed
    exact ⟨_, extent_at s positive packed.1.least⟩

/-- A hundred times a number is rounded by at most one part in two to the 53. -/
theorem abs_nearest_hundred_sub_le {x : Float} (finite : x.isFinite = true)
    (nonneg : 0 ≤ extent x) :
    |nearest (100 * extent x) - 100 * extent x| ≤ 100 * extent x * 2 ^ (-53 : Int) := by
  obtain ⟨z, whole⟩ := extent_whole finite
  have z_nonneg : 0 ≤ z := by
    rw [whole] at nonneg
    exact_mod_cast nonneg_of_mul_nonneg_left nonneg (unit_pos (-1074))
  obtain ⟨n, rfl⟩ := Int.eq_ofNat_of_zero_le z_nonneg
  have hundred : 100 * extent x = (100 * n : Nat) * 2 ^ (-1074 : Int) := by
    rw [whole, Int.cast_natCast, Nat.cast_mul, mul_assoc]
    rfl
  rw [hundred]
  exact abs_nearest_sub_le_relative (le_refl _)

variable {lowest highest close : Float}

/-- The distance of two different numbers is not rounded to zero. -/
theorem range_pos (hl : lowest.isFinite = true) (hh : highest.isFinite = true)
    (below : extent lowest < extent highest) : 0 < extent (highest - lowest) := by
  have range := rounds_sub hh hl (le_of_lt below)
  obtain ⟨m, low⟩ := extent_whole hl
  obtain ⟨n, high⟩ := extent_whole hh
  have least : nearest (2 ^ (-1074 : Int)) = 2 ^ (-1074 : Int) := by
    have digits := nearest_of_digits (n := 1) (by norm_num) (le_refl (-1074 : Int))
    rwa [Nat.cast_one, one_mul] at digits
  have apart : (2 : Rat) ^ (-1074 : Int) ≤ extent highest - extent lowest := by
    rw [low, high] at below ⊢
    have order : m < n := by
      exact_mod_cast lt_of_mul_lt_mul_right below (le_of_lt (unit_pos (-1074)))
    have one : (1 : Rat) ≤ n - m := by exact_mod_cast Int.le_sub_left_of_add_le order
    rw [← sub_mul]
    exact le_mul_of_one_le_left (le_of_lt (unit_pos (-1074))) one
  rw [range.extent]
  refine lt_min ?_ beyond_pos
  calc (0 : Rat) < 2 ^ (-1074 : Int) := unit_pos (-1074)
    _ = nearest (2 ^ (-1074 : Int)) := least.symm
    _ ≤ nearest (extent highest - extent lowest) := nearest_mono (le_of_lt (unit_pos (-1074))) apart

theorem rounds_hundred {x : Float} (finite : x.isFinite = true) (nonneg : 0 ≤ extent x) :
    Rounds (100.0 * x) (100 * extent x) := by
  have hundred_nonneg : 0 ≤ extent 100.0 := by
    rw [extent_hundred]
    norm_num
  have product := rounds_mul (x := 100.0) rfl finite hundred_nonneg nonneg
  rwa [extent_hundred] at product

theorem finite_of_none {x : Float} (number : x.isNaN = false) (none : extent x = 0) :
    (100.0 * x).isFinite = true := by
  have finite : x.isFinite = true := by
    rw [isFinite_iff_extent number, none, abs_zero]
    exact beyond_pos
  have product := rounds_hundred finite (le_of_eq none.symm)
  rw [none, mul_zero] at product
  rw [product.isFinite_iff (le_refl 0), nearest_zero]
  exact beyond_pos

section Quotients

variable {d r : Float} (d_finite : d.isFinite = true) (d_nonneg : 0 ≤ extent d)
  (r_number : r.isNaN = false) (r_pos : 0 < extent r) (finite : (100.0 * d).isFinite = true)
include d_finite d_nonneg r_number r_pos finite

theorem rounds_percent :
    Rounds (100.0 * d / r) (if r.isFinite then nearest (100 * extent d) / extent r else 0) := by
  have product := rounds_hundred d_finite d_nonneg
  have product_nonneg : 0 ≤ 100 * extent d := mul_nonneg (by norm_num) d_nonneg
  have quotient := rounds_quotient finite (product.extent_nonneg product_nonneg) r_number r_pos
  rwa [product.extent_eq product_nonneg finite] at quotient

/-- What is not above the divisor is at most a hundred hundredths of it, and one rounding more. -/
theorem percent_within (ordered : extent d ≤ extent r) :
    Within (extent 100.00000000000001) (100.0 * d / r) := by
  have product_nonneg : 0 ≤ 100 * extent d := mul_nonneg (by norm_num) d_nonneg
  have first := nearest_above_hundred 1 (by norm_num)
  rw [Nat.cast_one, one_mul] at first
  have bounds : 0 ≤ (if r.isFinite then nearest (100 * extent d) / extent r else 0) ∧
      (if r.isFinite then nearest (100 * extent d) / extent r else 0) ≤ 100 + 2 ^ (-46 : Int) := by
    split
    · rename_i r_finite
      refine ⟨div_nonneg (nearest_nonneg product_nonneg) (le_of_lt r_pos), ?_⟩
      have error := (abs_le.mp (abs_nearest_hundred_sub_le r_finite (le_of_lt r_pos))).2
      rw [div_le_iff₀ r_pos]
      calc nearest (100 * extent d) ≤ nearest (100 * extent r) :=
            nearest_mono product_nonneg (mul_le_mul_of_nonneg_left ordered (by norm_num))
        _ ≤ 100 * extent r + 100 * extent r * 2 ^ (-53 : Int) := by linarith
        _ = (100 + 100 * 2 ^ (-53 : Int)) * extent r := by ring
        _ ≤ (100 + 2 ^ (-46 : Int)) * extent r :=
            mul_le_mul_of_nonneg_right (by norm_num) (le_of_lt r_pos)
    · exact ⟨le_refl 0, by positivity⟩
  have small : extent 100.00000000000001 < beyond := by
    rw [extent_above_hundred]
    exact lt_trans (by norm_num) cap_lt_beyond
  refine .of_rounds (rounds_percent d_finite d_nonneg r_number r_pos finite) bounds.1 ?_ small
  rw [extent_above_hundred, ← first]
  exact nearest_mono bounds.1 bounds.2

theorem percent_of_none (none : extent d = 0) : extent (100.0 * d / r) = 0 := by
  have quotient := rounds_percent d_finite d_nonneg r_number r_pos finite
  rw [none, mul_zero, nearest_zero, zero_div, ite_self] at quotient
  rw [quotient.extent, nearest_zero, min_eq_left (le_of_lt beyond_pos)]

theorem le_percent_of_all (all : extent d = extent r) :
    99.99999999999999 ≤ 100.0 * d / r := by
  have r_finite : r.isFinite = true := by
    rw [isFinite_iff_extent r_number, ← all]
    exact (isFinite_iff_extent (isNaN_false_of_isFinite d_finite)).mp d_finite
  have quotient := rounds_percent d_finite d_nonneg r_number r_pos finite
  rw [if_pos r_finite, all] at quotient
  have error := (abs_le.mp (abs_nearest_hundred_sub_le r_finite (le_of_lt r_pos))).1
  have nonneg : 0 ≤ extent 99.99999999999999 := by
    rw [extent_below_hundred]
    positivity
  have unrounded : extent 99.99999999999999 ≤ nearest (100 * extent r) / extent r := by
    rw [le_div_iff₀ r_pos, extent_below_hundred]
    calc 7036874417766399 * 2 ^ (-46 : Int) * extent r
        ≤ (100 - 100 * 2 ^ (-53 : Int)) * extent r :=
          mul_le_mul_of_nonneg_right (by norm_num) (le_of_lt r_pos)
      _ = 100 * extent r - 100 * extent r * 2 ^ (-53 : Int) := by ring
      _ ≤ nearest (100 * extent r) := by linarith
  exact (rounds_self rfl nonneg).le quotient nonneg unrounded

end Quotients

/-- What rounding leaves of the order of three prices: distances that are not negative, the greater
for the higher price, and a range above zero if the outer two differ. -/
structure Spread (lowest highest close : Float) : Prop where
  distance_number : (close - lowest).isNaN = false
  range_number : (highest - lowest).isNaN = false
  nonneg : 0 ≤ extent (close - lowest)
  ordered : extent (close - lowest) ≤ extent (highest - lowest)
  bottom : close == lowest → extent (close - lowest) = 0
  top : close == highest → extent (close - lowest) = extent (highest - lowest)
  apart : lowest < highest → 0 < extent (highest - lowest)

theorem spread_of_prices (hl : lowest.isFinite = true) (hc : close.isFinite = true)
    (hh : highest.isFinite = true) (above : lowest ≤ close) (below : close ≤ highest) :
    Spread lowest highest close := by
  have l_number := isNaN_false_of_isFinite hl
  have c_number := isNaN_false_of_isFinite hc
  have h_number := isNaN_false_of_isFinite hh
  rw [le_iff_extent l_number c_number] at above
  rw [le_iff_extent c_number h_number] at below
  have distance := rounds_sub hc hl above
  have range := rounds_sub hh hl (le_trans above below)
  have nonneg := sub_nonneg.mpr above
  refine ⟨distance.number, range.number, distance.extent_nonneg nonneg, ?_, ?_, ?_, ?_⟩
  · rw [distance.extent, range.extent]
    exact min_le_min_right _ (nearest_mono nonneg (sub_le_sub_right below _))
  · intro lowest_close
    rw [beq_iff_extent c_number l_number] at lowest_close
    rw [distance.extent, lowest_close, sub_self, nearest_zero, min_eq_left (le_of_lt beyond_pos)]
  · intro highest_close
    rw [beq_iff_extent c_number h_number] at highest_close
    rw [distance.extent, range.extent, highest_close]
  · intro higher
    exact range_pos hl hh ((lt_iff_extent l_number h_number).mp higher)

namespace Spread

variable (spread : Spread lowest highest close)
include spread

theorem placed_of_flat (flat : extent (highest - lowest) = 0) :
    Placed lowest highest close 50.0 := by
  have none : extent (close - lowest) = 0 :=
    le_antisymm (spread.ordered.trans (le_of_eq flat)) spread.nonneg
  refine ⟨iff_of_true rfl (finite_of_none spread.distance_number none), fun _ => by decide, ?_, ?_⟩
  · intro higher
    exact absurd flat (ne_of_gt (spread.apart higher))
  · intro higher
    exact absurd flat (ne_of_gt (spread.apart higher))

theorem placed_of_finite (range_pos : 0 < extent (highest - lowest))
    (finite : (100.0 * (close - lowest)).isFinite = true) :
    Placed lowest highest close (100.0 * (close - lowest) / (highest - lowest)) := by
  have zero_number : (0.0 : Float).isNaN = false := rfl
  have distance_finite : (close - lowest).isFinite = true := by
    by_contra infinite
    exact Bool.false_ne_true
      ((isFinite_mul (Bool.eq_false_of_not_eq_true infinite)).symm.trans finite)
  have inside := percent_within distance_finite spread.nonneg spread.range_number range_pos finite
    spread.ordered
  have number := isNaN_false_of_isFinite inside.finite
  refine ⟨iff_of_true inside.finite finite, fun _ => ⟨?_, ?_⟩, ?_, ?_⟩
  · exact (le_iff_extent zero_number number).mpr inside.nonneg
  · exact (le_iff_extent number rfl).mpr inside.le
  · intro _ lowest_close
    rw [beq_iff_extent number zero_number]
    exact percent_of_none distance_finite spread.nonneg spread.range_number range_pos
      finite (spread.bottom lowest_close)
  · intro _ highest_close _
    exact le_percent_of_all distance_finite spread.nonneg spread.range_number range_pos finite
      (spread.top highest_close)

/-- What is too great stays too great when divided, and is no distance of a close from itself. -/
theorem placed_of_infinite (infinite : (100.0 * (close - lowest)).isFinite = false) :
    Placed lowest highest close (100.0 * (close - lowest) / (highest - lowest)) := by
  have divided : (100.0 * (close - lowest) / (highest - lowest)).isFinite = false :=
    isFinite_div infinite
  refine ⟨by rw [divided, infinite], ?_, ?_, ?_⟩
  · intro finite
    cases divided.symm.trans finite
  · intro _ lowest_close
    have finite := finite_of_none spread.distance_number (spread.bottom lowest_close)
    cases infinite.symm.trans finite
  · intro _ _ finite
    cases divided.symm.trans finite

theorem placed : Placed lowest highest close (percentBetween lowest highest close) := by
  have flat_iff : (highest - lowest == 0.0) = true ↔ extent (highest - lowest) = 0 :=
    beq_iff_extent spread.range_number rfl
  unfold percentBetween
  split
  · rename_i flat
    exact spread.placed_of_flat (flat_iff.mp flat)
  · rename_i steep
    rw [flat_iff] at steep
    cases product : (100.0 * (close - lowest)).isFinite with
    | true =>
      have range_pos := lt_of_le_of_ne (spread.nonneg.trans spread.ordered) (Ne.symm steep)
      exact spread.placed_of_finite range_pos product
    | false => exact spread.placed_of_infinite product

end Spread

example : (percentBetween 1e300 1.7e308 1.7e308).isFinite = false := by decide +kernel

end Percents

/-- A mean of percentages is finite if all of them are, and then bounded as they are. -/
theorem mean_of_percents {percents : List Float} {d : Nat}
    (each : ∀ x ∈ percents, x.isFinite = true → Within (extent 100.00000000000001) x)
    (length : percents.length = d) (positive : 1 ≤ d) :
    ((mean d percents).isFinite = true ↔ ∀ x ∈ percents, x.isFinite = true) ∧
    ((mean d percents).isFinite = true → 0.0 ≤ mean d percents ∧
      mean d percents ≤ mean d (List.replicate d 100.00000000000001) ∧
      (d ≤ 2 ^ 45 → mean d percents ≤ 100.00000000000003)) := by
  have copy : Within 128 100.00000000000001 := within_above_hundred.mono (by norm_num)
  refine ⟨⟨isFinite_of_mean, ?_⟩, ?_⟩
  · intro finite
    have all : ∀ x ∈ percents, Within 128 x :=
      fun x member => (each x member (finite x member)).mono copy.le
    exact (mean_within all positive).finite
  · intro finite
    have all : ∀ x ∈ percents, Within (extent 100.00000000000001) x :=
      fun x member => each x member (isFinite_of_mean finite x member)
    have nonneg := (mean_within (fun x member => (all x member).mono copy.le) positive).nonneg
    have most := mean_le copy all length positive
    refine ⟨(le_iff_extent rfl (isNaN_false_of_isFinite finite)).mpr nonneg, most, ?_⟩
    intro few
    refine float_le_trans most ((le_iff_extent (numbers_of_le most).2 rfl).mpr ?_)
    rw [extent_second_above_hundred]
    exact mean_hundreds_le within_above_hundred positive few

section Readings

variable (a : Asset) (priced : ∀ q ∈ a.history, q.Priced) {kPeriod dPeriod i : Nat}

theorem percentK_eq_ofList (kPeriod : Nat) : percentK a.high a.low a.close kPeriod =
    Series.ofList (windows kPeriod percentOf a.history) := by
  rw [a.high_eq_ofList, a.low_eq_ofList, a.close_eq_ofList, percentK_ofList]

theorem length_percents (kPeriod : Nat) :
    (windows kPeriod percentOf a.history).length = windowedLength a.length kPeriod :=
  length_windows kPeriod percentOf a.history

theorem read_percentK (defined : i < windowedLength a.length kPeriod) :
    (percentK a.high a.low a.close kPeriod).read i =
      .ok (percentOf ((a.history.drop i).take kPeriod)) := by
  have inside : i < (windows kPeriod percentOf a.history).length := by rwa [length_percents]
  rw [percentK_eq_ofList, Series.read_ofList_of_lt inside, getElem_windows]

theorem stochasticAt_d (defined : i < windowedLength (windowedLength a.length kPeriod) dPeriod) :
    stochasticAt a.high a.low a.close kPeriod dPeriod .d i =
      .ok (mean dPeriod (((windows kPeriod percentOf a.history).drop i).take dPeriod)) := by
  have inside :
      i < (windows dPeriod (mean dPeriod) (windows kPeriod percentOf a.history)).length := by
    rwa [length_windows, length_percents]
  rw [stochasticAt, percentK_eq_ofList, smaAt_ofList, Series.read_ofList_of_lt inside,
    getElem_windows]

include priced

theorem placed_percentOf (defined : i < windowedLength a.length kPeriod) :
    ∃ lowest highest close, Extremes ((a.history.drop i).take kPeriod) lowest highest ∧
      a.close.read i = .ok close ∧
      Placed lowest highest close (percentOf ((a.history.drop i).take kPeriod)) := by
  obtain ⟨inside, positive⟩ := window_inside defined
  have here : i < a.history.length := by
    rw [a.length_history]
    omega
  have window : (a.history.drop i).take kPeriod =
      a.history[i] :: (a.history.drop (i + 1)).take (kPeriod - 1) := by
    rw [List.drop_eq_getElem_cons here, ← List.take_succ_cons, Nat.sub_add_cancel positive]
  have all : ∀ q ∈ (a.history.drop i).take kPeriod, q.Priced :=
    fun q member => priced q (List.mem_of_mem_drop (List.mem_of_mem_take member))
  rw [window] at all ⊢
  have newest := all _ List.mem_cons_self
  have extremes := (extremes_first newest).foldl all
  refine ⟨_, _, a.history[i].close, extremes, ?_, ?_⟩
  · rw [a.close_eq_ofList, Series.read_map_of_lt here]
  · obtain ⟨⟨l, l_mem, l_low⟩, lowest_le, ⟨h, h_mem, h_high⟩, le_highest⟩ := extremes
    refine (spread_of_prices ?_ newest.close ?_ ?_ ?_).placed
    · rw [← l_low]
      exact (all l l_mem).low
    · rw [← h_high]
      exact (all h h_mem).high
    · exact float_le_trans (lowest_le _ List.mem_cons_self) newest.low_le_close
    · exact float_le_trans newest.close_le_high (le_highest _ List.mem_cons_self)

/-- The finite percentages of a window lie where each of them does. -/
theorem percents_within (inside : i + dPeriod ≤ windowedLength a.length kPeriod) :
    ∀ x ∈ ((windows kPeriod percentOf a.history).drop i).take dPeriod, x.isFinite = true →
      Within (extent 100.00000000000001) x := by
  intro x member finite
  obtain ⟨n, below, value⟩ := List.getElem_of_mem member
  rw [List.length_take] at below
  rw [List.getElem_take, List.getElem_drop, getElem_windows] at value
  have defined : i + n < windowedLength a.length kPeriod := by omega
  obtain ⟨lowest, highest, close, -, -, placed⟩ := placed_percentOf a priced defined
  rw [value] at placed
  have number := isNaN_false_of_isFinite finite
  obtain ⟨nonneg, le⟩ := placed.within finite
  exact ⟨finite, (le_iff_extent rfl number).mp nonneg, (le_iff_extent number rfl).mp le⟩

omit priced in
/-- The percentages of a window, by their indices. -/
theorem mem_percents_iff (inside : i + dPeriod ≤ windowedLength a.length kPeriod) (x : Float) :
    x ∈ ((windows kPeriod percentOf a.history).drop i).take dPeriod ↔
      ∃ j, i ≤ j ∧ j < i + dPeriod ∧ (percentK a.high a.low a.close kPeriod).read j = .ok x := by
  have length := length_percents a kPeriod
  constructor
  · intro member
    obtain ⟨n, below, value⟩ := List.getElem_of_mem member
    rw [List.length_take] at below
    rw [List.getElem_take, List.getElem_drop] at value
    refine ⟨i + n, Nat.le_add_right i n, by omega, ?_⟩
    rw [percentK_eq_ofList, Series.read_ofList_of_lt (by omega), value]
  · rintro ⟨j, from_start, before_end, read⟩
    have here : j < (windows kPeriod percentOf a.history).length := by omega
    rw [percentK_eq_ofList, Series.read_ofList_of_lt here] at read
    have shifted : i + (j - i) = j := by omega
    refine List.mem_iff_getElem.mpr ⟨j - i, ?_, ?_⟩
    · rw [List.length_take, List.length_drop]
      omega
    · rw [List.getElem_take, List.getElem_drop]
      simp only [shifted]
      exact Except.ok.inj read

end Readings

/-- **The oscillator stays between its ends.** Over quotes with finite prices and closes between
their lows and highs, every percentage places the close of its bar between the lowest low and the
highest high of its window: it is finite if a hundred times the distance from the lowest low is, and
then between 0 and the first number above 100; at the lowest low it is 0, at the highest high it is
100 but for a unit in the last place. A mean of percentages is finite if all of them are, and then
not negative and not above the mean of as many copies of the first number above 100; for up to
`2 ^ 45` of them, that is not above the second. -/
theorem stochastic_stays_between (a : Asset) (priced : ∀ q ∈ a.history, q.Priced)
    (kPeriod dPeriod : Nat) :
    (∀ i, i < windowedLength a.length kPeriod → ∃ lowest highest close percent,
      Extremes ((a.history.drop i).take kPeriod) lowest highest ∧
      a.close.read i = .ok close ∧
      (percentK a.high a.low a.close kPeriod).read i = .ok percent ∧
      stochasticAt a.high a.low a.close kPeriod dPeriod .k i = .ok percent ∧
      Placed lowest highest close percent) ∧
    ∀ i, i < windowedLength (windowedLength a.length kPeriod) dPeriod → ∃ v,
      stochasticAt a.high a.low a.close kPeriod dPeriod .d i = .ok v ∧
      (v.isFinite = true ↔ ∀ j percent, i ≤ j → j < i + dPeriod →
        (percentK a.high a.low a.close kPeriod).read j = .ok percent → percent.isFinite = true) ∧
      (v.isFinite = true → 0.0 ≤ v ∧
        v ≤ mean dPeriod (List.replicate dPeriod 100.00000000000001) ∧
        (dPeriod ≤ 2 ^ 45 → v ≤ 100.00000000000003)) := by
  refine ⟨?_, ?_⟩
  · intro i defined
    obtain ⟨lowest, highest, close, extremes, read, placed⟩ := placed_percentOf a priced defined
    have percent := read_percentK a defined
    exact ⟨lowest, highest, close, _, extremes, read, percent, percent, placed⟩
  · intro i defined
    obtain ⟨inside, positive⟩ := window_inside defined
    have listed := mem_percents_iff a inside
    have each := percents_within a priced inside
    have length :
        (((windows kPeriod percentOf a.history).drop i).take dPeriod).length = dPeriod := by
      rw [List.length_take, List.length_drop, length_percents]
      omega
    obtain ⟨finite_iff, bounds⟩ := mean_of_percents each length positive
    refine ⟨_, stochasticAt_d a defined, finite_iff.trans ?_, bounds⟩
    constructor
    · intro finite j percent from_start before_end read
      exact finite percent ((listed percent).mpr ⟨j, from_start, before_end, read⟩)
    · intro finite x member
      obtain ⟨j, from_start, before_end, read⟩ := (listed x).mp member
      exact finite j x from_start before_end read

/-- The newer of two bars closes at its high, the older one halfway. -/
theorem stochastic_stays_between_of_two_bars :
    let older : Quote := ⟨⟨2024, 1, 1, 0, 0, 0, by decide, by decide, by decide, by decide,
      by decide, by decide⟩, 10.0, 12.0, 8.0, 10.0, 1000⟩
    let newer : Quote := ⟨⟨2024, 1, 2, 0, 0, 0, by decide, by decide, by decide, by decide,
      by decide, by decide⟩, 14.0, 14.0, 9.0, 14.0, 1000⟩
    let a : Asset := .ofQuotes "TEST" [older, newer]
    (∀ q ∈ a.history, q.Priced) ∧
      (∃ percent, stochasticAt a.high a.low a.close 1 2 .k 0 = .ok percent ∧
        percent.isFinite = true ∧ 0.0 ≤ percent ∧ percent ≤ 100.00000000000001) ∧
      ∃ v, stochasticAt a.high a.low a.close 1 2 .d 0 = .ok v ∧ 0.0 ≤ v ∧
        v ≤ 100.00000000000003 := by
  intro older newer a
  have history : a.history = [newer, older] := by decide
  have priced : ∀ q ∈ a.history, q.Priced := by
    rw [history]
    intro q member
    rcases List.mem_pair.mp member with rfl | rfl
    · exact ⟨by decide, by decide, by decide, by decide, by decide⟩
    · exact ⟨by decide, by decide, by decide, by decide, by decide⟩
  have newest : (percentK a.high a.low a.close 1).read 0 = .ok 100.0 := by
    rw [read_percentK a (by decide)]
    exact congrArg Except.ok (by decide +kernel)
  have before : (percentK a.high a.low a.close 1).read 1 = .ok 50.0 := by
    rw [read_percentK a (by decide)]
    exact congrArg Except.ok (by decide +kernel)
  obtain ⟨percents, means⟩ := stochastic_stays_between a priced 1 2
  obtain ⟨lowest, highest, close, percent, -, -, read, at_k, placed⟩ := percents 0 (by decide)
  obtain ⟨v, at_d, finite_iff, bounds⟩ := means 0 (by decide)
  have finite : ∀ j percent, 0 ≤ j → j < 0 + 2 →
      (percentK a.high a.low a.close 1).read j = .ok percent → percent.isFinite = true := by
    intro j percent _ inside read
    rcases (show j = 0 ∨ j = 1 by omega) with rfl | rfl
    · rw [newest] at read
      obtain rfl := Except.ok.inj read
      rfl
    · rw [before] at read
      obtain rfl := Except.ok.inj read
      rfl
  have percent_finite := finite 0 percent (by decide) (by decide) read
  obtain ⟨nonneg, -, few⟩ := bounds (finite_iff.mpr finite)
  exact ⟨priced, ⟨percent, at_k, percent_finite, placed.within percent_finite⟩, v, at_d, nonneg,
    few (by decide)⟩

/-- A bar between three tenths and one tenth that closes at its high is placed above 100. -/
theorem stochastic_above_hundred :
    ¬ ∀ (a : Asset) (kPeriod dPeriod i : Nat) (output : StochasticOutput) (v : Float),
      (∀ q ∈ a.history, q.Priced) → 1 ≤ kPeriod → 1 ≤ dPeriod →
      stochasticAt a.high a.low a.close kPeriod dPeriod output i = .ok v →
      0.0 ≤ v ∧ v ≤ 100.0 := by
  intro claim
  let only : Quote := ⟨⟨2024, 1, 1, 0, 0, 0, by decide, by decide, by decide, by decide,
    by decide, by decide⟩, 0.3, 0.3, 0.1, 0.3, 1000⟩
  let a : Asset := .ofQuotes "TEST" [only]
  have history : a.history = [only] := by decide
  have priced : ∀ q ∈ a.history, q.Priced := by
    rw [history]
    intro q member
    rw [List.mem_singleton.mp member]
    exact ⟨by decide, by decide, by decide, by decide, by decide⟩
  have above : stochasticAt a.high a.low a.close 1 1 .k 0 = .ok 100.00000000000001 := by
    refine (read_percentK a (by decide)).trans ?_
    exact congrArg Except.ok (by decide +kernel)
  have bounded := claim a 1 1 0 .k _ priced (by decide) (by decide) above
  exact absurd bounded.2 (by decide)

end Indicator

end TradingRules
