import TradingRules.Proofs.Operations
import TradingRules.Proofs.Windows

/-!
# Means of rounded sums

Adding rounds after every step, and so does the mean in the end; but rounding keeps the order, so a
mean is never above the one of as many copies of a value that none of its values exceeds. Values up
to 128 never add up to more than `2 ^ 60`, where the next number is too far away to be reached, so
their mean is finite however many they are, and one value that is not finite leaves none. Copies of
the first number above 100 do not drift away from the hundreds: their sum is at most one unit above
the last place of the exact multiple of 100.
-/

namespace TradingRules

open Unpacked Binary64

/-- Finite, not negative and at most `bound`. -/
structure Within (bound : Rat) (x : Float) : Prop where
  finite : x.isFinite = true
  nonneg : 0 ≤ extent x
  le : extent x ≤ bound

namespace Within

variable {b c : Rat} {x s t : Float}

theorem mono (inside : Within b x) (ordered : b ≤ c) : Within c x :=
  ⟨inside.finite, inside.nonneg, inside.le.trans ordered⟩

theorem of_rounds {q : Rat} (rounds : Rounds x q) (nonneg : 0 ≤ q) (le : nearest q ≤ b)
    (small : b < beyond) : Within b x := by
  have finite := (rounds.isFinite_iff nonneg).mpr (lt_of_le_of_lt le small)
  refine ⟨finite, rounds.extent_nonneg nonneg, ?_⟩
  rw [rounds.extent_eq nonneg finite]
  exact le

theorem zero : Within 0 (Float.ofNat 0) := by
  have rounds := rounds_ofNat 0
  rw [Nat.cast_zero] at rounds
  exact of_rounds rounds (le_refl 0) (le_of_eq nearest_zero) beyond_pos

end Within

section Sums

theorem cap_lt_beyond : (2 : Rat) ^ 60 < beyond := by
  calc (2 : Rat) ^ 60 = 2 ^ (60 : Int) := (zpow_natCast 2 60).symm
    _ < beyond := zpow_lt_zpow_right₀ (by norm_num) (by norm_num)

/-- What lies halfway to the next number goes back to the even one. -/
theorem nearest_cap : nearest (2 ^ 60 + 128) = 2 ^ 60 := by
  have log : Int.log 2 (2 ^ 60 + 128 : Rat) = 60 := by
    have whole := Int.log_natCast (R := Rat) 2 (2 ^ 60 + 128)
    have digits : Nat.log 2 (2 ^ 60 + 128) = 60 :=
      (Nat.log_eq_iff (by norm_num)).mpr ⟨by norm_num, by norm_num⟩
    rw [digits] at whole
    exact_mod_cast whole
  have last : place (2 ^ 60 + 128) = 8 := by
    unfold place
    omega
  have halfway : roundEven ((2 ^ 60 + 128) / 2 ^ (8 : Int)) = 2 ^ 52 := by
    have floor : ⌊((2 ^ 60 + 128) / 2 ^ (8 : Int) : Rat)⌋ = 2 ^ 52 := by
      rw [Int.floor_eq_iff]
      norm_num
    unfold roundEven
    rw [floor]
    norm_num
  rw [nearest, last, halfway]
  norm_num

variable {c s t x : Float} {xs : List Float}

theorem extent_add (hs : Within (2 ^ 60) s) (hx : Within 128 x) :
    Within (2 ^ 60) (s + x) ∧ extent (s + x) = nearest (extent s + extent x) := by
  have rounds := rounds_add hs.finite hx.finite hs.nonneg hx.nonneg
  have nonneg := add_nonneg hs.nonneg hx.nonneg
  have le : nearest (extent s + extent x) ≤ 2 ^ 60 := by
    rw [← nearest_cap]
    exact nearest_mono nonneg (add_le_add hs.le hx.le)
  have inside := Within.of_rounds rounds nonneg le cap_lt_beyond
  exact ⟨inside, rounds.extent_eq nonneg inside.finite⟩

theorem foldl_add_within (each : ∀ x ∈ xs, Within 128 x) (start : Within (2 ^ 60) s) :
    Within (2 ^ 60) (xs.foldl (· + ·) s) := by
  induction xs generalizing s with
  | nil => exact start
  | cons x older ih =>
    have head := each x List.mem_cons_self
    exact ih (fun y member => each y (List.mem_cons_of_mem x member)) (extent_add start head).1

/-- Added to no more, values up to `c` give no more than as many copies of `c`. -/
theorem foldl_add_le (copy : Within 128 c) (each : ∀ x ∈ xs, Within (extent c) x)
    (hs : Within (2 ^ 60) s) (ht : Within (2 ^ 60) t) (ordered : extent s ≤ extent t) :
    extent (xs.foldl (· + ·) s) ≤ extent ((List.replicate xs.length c).foldl (· + ·) t) := by
  induction xs generalizing s t with
  | nil => exact ordered
  | cons x older ih =>
    have head := each x List.mem_cons_self
    obtain ⟨sum, sum_eq⟩ := extent_add hs (head.mono copy.le)
    obtain ⟨most, most_eq⟩ := extent_add ht copy
    refine ih (fun y member => each y (List.mem_cons_of_mem x member)) sum most ?_
    rw [sum_eq, most_eq]
    exact nearest_mono (add_nonneg hs.nonneg head.nonneg) (add_le_add ordered head.le)

/-- One value that is not finite leaves no finite sum. -/
theorem isFinite_foldl_add (infinite : s.isFinite = false ∨ ∃ x ∈ xs, x.isFinite = false) :
    (xs.foldl (· + ·) s).isFinite = false := by
  induction xs generalizing s with
  | nil =>
    rcases infinite with start | ⟨x, member, -⟩
    · exact start
    · cases member
  | cons x older ih =>
    refine ih ?_
    rcases infinite with start | ⟨y, member, y_infinite⟩
    · exact .inl (isFinite_add (.inl start))
    · rcases List.mem_cons.mp member with rfl | member
      · exact .inl (isFinite_add (.inr y_infinite))
      · exact .inr ⟨y, member, y_infinite⟩

end Sums

section Means

open Indicator (mean)

variable {c : Float} {xs : List Float} {d : Nat}

theorem one_le_count (positive : 1 ≤ d) : 1 ≤ extent (Float.ofNat d) := by
  have one : nearest 1 = 1 := by exact_mod_cast nearest_natCast (n := 1) (by norm_num)
  have below : (1 : Rat) < beyond := by exact_mod_cast natCast_lt_beyond (n := 1) (by norm_num)
  rw [(rounds_ofNat d).extent]
  refine le_min ?_ (le_of_lt below)
  calc (1 : Rat) = nearest 1 := one.symm
    _ ≤ nearest d := nearest_mono (by norm_num) (by exact_mod_cast positive)

/-- What the mean is rounded from. Nothing is left of a sum divided by a count that is too great. -/
def unroundedMean (d : Nat) (xs : List Float) : Rat :=
  if (Float.ofNat d).isFinite then
    extent (xs.foldl (· + ·) (Float.ofNat 0)) / extent (Float.ofNat d)
  else 0

theorem sum_within (each : ∀ x ∈ xs, Within 128 x) :
    Within (2 ^ 60) (xs.foldl (· + ·) (Float.ofNat 0)) :=
  foldl_add_within each (Within.zero.mono (by positivity))

theorem rounds_mean (each : ∀ x ∈ xs, Within 128 x) (positive : 1 ≤ d) :
    Rounds (mean d xs) (unroundedMean d xs) :=
  rounds_quotient (sum_within each).finite (sum_within each).nonneg (rounds_ofNat d).number
    (lt_of_lt_of_le one_pos (one_le_count positive))

theorem unroundedMean_nonneg (each : ∀ x ∈ xs, Within 128 x) (positive : 1 ≤ d) :
    0 ≤ unroundedMean d xs := by
  unfold unroundedMean
  split
  · exact div_nonneg (sum_within each).nonneg (le_trans zero_le_one (one_le_count positive))
  · exact le_refl 0

theorem mean_within (each : ∀ x ∈ xs, Within 128 x) (positive : 1 ≤ d) :
    Within (2 ^ 60) (mean d xs) := by
  have sum := sum_within each
  have nonneg := unroundedMean_nonneg each positive
  have cap : nearest (2 ^ 60) = 2 ^ 60 := by
    have digits := nearest_of_digits (n := 1) (e := 60) (by norm_num) (by norm_num)
    exact_mod_cast digits
  have unrounded : unroundedMean d xs ≤ 2 ^ 60 := by
    unfold unroundedMean
    split
    · exact le_trans (div_le_self sum.nonneg (one_le_count positive)) sum.le
    · positivity
  refine .of_rounds (rounds_mean each positive) nonneg ?_ cap_lt_beyond
  exact le_trans (nearest_mono nonneg unrounded) (le_of_eq cap)

theorem isFinite_of_mean (finite : (mean d xs).isFinite = true) : ∀ x ∈ xs, x.isFinite = true := by
  intro x member
  by_contra infinite
  have sum : (xs.foldl (· + ·) (Float.ofNat 0)).isFinite = false :=
    isFinite_foldl_add (.inr ⟨x, member, Bool.eq_false_of_not_eq_true infinite⟩)
  have divided : (mean d xs).isFinite = false := isFinite_div sum
  cases divided.symm.trans finite

theorem copies_within {bound : Rat} (copy : Within bound c) :
    ∀ x ∈ List.replicate d c, Within bound x := by
  intro x member
  rw [List.eq_of_mem_replicate member]
  exact copy

/-- No mean of values up to `c` is above the mean of as many copies of `c`. -/
theorem mean_le (copy : Within 128 c) (each : ∀ x ∈ xs, Within (extent c) x)
    (length : xs.length = d) (positive : 1 ≤ d) :
    mean d xs ≤ mean d (List.replicate d c) := by
  have moderate : ∀ x ∈ xs, Within 128 x := fun x member => (each x member).mono copy.le
  have start : Within (2 ^ 60) (Float.ofNat 0) := Within.zero.mono (by positivity)
  have sums := foldl_add_le copy each start start (le_refl _)
  rw [length] at sums
  refine (rounds_mean moderate positive).le (rounds_mean (copies_within copy) positive)
    (unroundedMean_nonneg moderate positive) ?_
  unfold unroundedMean
  split
  · exact div_le_div_of_nonneg_right sums (le_trans zero_le_one (one_le_count positive))
  · exact le_refl 0

end Means

section Hundreds

open Indicator (mean)

variable {c : Float} {d : Nat}

theorem place_natCast (n : Nat) : place n = (Nat.log 2 n : Int) - 52 := by
  have log : Int.log 2 (n : Rat) = Nat.log 2 n := Int.log_natCast 2 n
  unfold place
  omega

/-- The numbers around 100 are the multiples of `2 ^ (-46)`. -/
theorem nearest_above_hundred (k : Nat) (few : k ≤ 128) :
    nearest (100 + k * 2 ^ (-46 : Int)) = 100 + k * 2 ^ (-46 : Int) := by
  have digits := nearest_of_digits (n := 100 * 2 ^ 46 + k) (e := -46) (by omega) (by norm_num)
  have value : ((100 * 2 ^ 46 + k : Nat) : Rat) * 2 ^ (-46 : Int) = 100 + k * 2 ^ (-46 : Int) := by
    push_cast
    rw [add_mul]
    norm_num
  rwa [value] at digits

/-- One more copy of the first number above 100 falls short of half a unit above the next place. -/
theorem place_hundreds {j : Nat} (positive : 1 ≤ j) :
    (2 : Rat) ^ place ((100 * j : Nat) : Rat) + 2 ^ (-46 : Int) <
      2 ^ place ((100 * (j + 1) : Nat) : Rat) + 2 ^ place ((100 * (j + 1) : Nat) : Rat) / 2 := by
  rw [place_natCast, place_natCast]
  have log_mono : Nat.log 2 (100 * j) ≤ Nat.log 2 (100 * (j + 1)) := Nat.log_mono_right (by omega)
  rcases Nat.lt_or_ge j 3 with few | many
  · -- Two hundred and three hundred each have one more binary digit than the hundred before.
    have logs : Nat.log 2 100 = 6 ∧ Nat.log 2 200 = 7 ∧ Nat.log 2 300 = 8 := by
      refine ⟨?_, ?_, ?_⟩ <;>
        exact (Nat.log_eq_iff (by norm_num)).mpr ⟨by norm_num, by norm_num⟩
    obtain ⟨one, two, three⟩ := logs
    rcases (show j = 1 ∨ j = 2 by omega) with rfl | rfl
    · norm_num [one, two]
    · norm_num [two, three]
  · have log : 8 ≤ Nat.log 2 (100 * j) :=
      (Nat.le_log_iff_pow_le (by norm_num) (by omega)).mpr (by omega)
    have units : (2 : Rat) ^ ((Nat.log 2 (100 * j) : Int) - 52) ≤
        2 ^ ((Nat.log 2 (100 * (j + 1)) : Int) - 52) :=
      zpow_le_zpow_right₀ (by norm_num) (by omega)
    have quarter : (2 : Rat) ^ (-44 : Int) ≤ 2 ^ ((Nat.log 2 (100 * (j + 1)) : Int) - 52) :=
      zpow_le_zpow_right₀ (by norm_num) (by omega)
    have small : (2 : Rat) ^ (-46 : Int) < 2 ^ (-44 : Int) / 2 := by norm_num
    exact add_lt_add_of_le_of_lt units
      (lt_of_lt_of_le small (div_le_div_of_nonneg_right quarter (by norm_num)))

theorem sum_replicate_succ (c : Float) (j : Nat) :
    (List.replicate (j + 1) c).foldl (· + ·) (Float.ofNat 0) =
      (List.replicate j c).foldl (· + ·) (Float.ofNat 0) + c := by
  rw [List.replicate_succ', List.foldl_append]
  rfl

/-- The sum of `j` copies is at most one unit above the last place of `100 * j`. -/
theorem sum_hundreds_le (copy : Within (100 + 2 ^ (-46 : Int)) c) {j : Nat} (positive : 1 ≤ j)
    (few : j ≤ 2 ^ 45) :
    extent ((List.replicate j c).foldl (· + ·) (Float.ofNat 0)) ≤
      (100 * j : Nat) + 2 ^ place ((100 * j : Nat) : Rat) := by
  have moderate : Within 128 c := copy.mono (by norm_num)
  have sums : ∀ j, Within (2 ^ 60) ((List.replicate j c).foldl (· + ·) (Float.ofNat 0)) :=
    fun j => sum_within (copies_within moderate)
  induction j, positive using Nat.le_induction with
  | base =>
    have none : extent (Float.ofNat 0) = 0 := le_antisymm Within.zero.le Within.zero.nonneg
    have log : Nat.log 2 100 = 6 :=
      (Nat.log_eq_iff (by norm_num)).mpr ⟨by norm_num, by norm_num⟩
    rw [sum_replicate_succ, (extent_add (sums 0) moderate).2, place_natCast]
    change nearest (extent (Float.ofNat 0) + extent c) ≤ _
    rw [none, zero_add]
    have first := nearest_above_hundred 1 (by norm_num)
    rw [Nat.cast_one, one_mul] at first
    refine le_trans (nearest_mono copy.nonneg copy.le) ?_
    rw [first]
    norm_num [log]
  | succ j positive ih =>
    have before := ih (by omega)
    have next : extent ((List.replicate j c).foldl (· + ·) (Float.ofNat 0)) + extent c ≤
        (100 * (j + 1) : Nat) + (2 ^ place ((100 * j : Nat) : Rat) + 2 ^ (-46 : Int)) := by
      have hundreds : ((100 * (j + 1) : Nat) : Rat) = (100 * j : Nat) + 100 := by
        push_cast
        ring
      rw [hundreds]
      have := copy.le
      linarith
    rw [sum_replicate_succ, (extent_add (sums j) moderate).2]
    refine le_trans (nearest_mono (add_nonneg (sums j).nonneg copy.nonneg) next) ?_
    refine nearest_le_next (by omega) (by omega) ?_ ?_
    · have := unit_pos (place ((100 * j : Nat) : Rat))
      have := unit_pos (-46)
      linarith
    · have := place_hundreds positive
      linarith

/-- A unit in the last place of a number is at most one part in two to the 52 of it. -/
theorem unit_le {n : Nat} (positive : 0 < n) : (2 : Rat) ^ place n ≤ n * 2 ^ (-52 : Int) := by
  have leading : ((2 ^ Nat.log 2 n : Nat) : Rat) ≤ n := by
    exact_mod_cast Nat.pow_log_le_self 2 (Nat.ne_of_gt positive)
  rw [Nat.cast_pow, Nat.cast_ofNat] at leading
  rw [place_natCast, sub_eq_add_neg, zpow_add₀ two_ne_zero, zpow_natCast]
  exact mul_le_mul_of_nonneg_right leading (le_of_lt (unit_pos _))

theorem mean_hundreds_le (copy : Within (100 + 2 ^ (-46 : Int)) c) (positive : 1 ≤ d)
    (few : d ≤ 2 ^ 45) : extent (mean d (List.replicate d c)) ≤ 100 + 2 * 2 ^ (-46 : Int) := by
  have each : ∀ x ∈ List.replicate d c, Within 128 x := copies_within (copy.mono (by norm_num))
  have count : extent (Float.ofNat d) = d := by
    rw [(rounds_ofNat d).extent, nearest_natCast (by omega),
      min_eq_left (le_of_lt (natCast_lt_beyond (by omega)))]
  have d_pos : (0 : Rat) < d := by exact_mod_cast positive
  have unrounded : unroundedMean d (List.replicate d c) ≤ 100 + 2 * 2 ^ (-46 : Int) := by
    unfold unroundedMean
    split
    · rw [count, div_le_iff₀ d_pos]
      calc extent ((List.replicate d c).foldl (· + ·) (Float.ofNat 0))
          ≤ (100 * d : Nat) + 2 ^ place ((100 * d : Nat) : Rat) := sum_hundreds_le copy positive few
        _ ≤ (100 * d : Nat) + (100 * d : Nat) * 2 ^ (-52 : Int) := by
            have := unit_le (show 0 < 100 * d by omega)
            linarith
        _ = (100 + 100 * 2 ^ (-52 : Int)) * d := by
            push_cast
            ring
        _ ≤ (100 + 2 * 2 ^ (-46 : Int)) * d :=
            mul_le_mul_of_nonneg_right (by norm_num) (le_of_lt d_pos)
    · positivity
  have nonneg := unroundedMean_nonneg each positive
  rw [(rounds_mean each positive).extent]
  calc min (nearest (unroundedMean d (List.replicate d c))) beyond
      ≤ nearest (unroundedMean d (List.replicate d c)) := min_le_left _ _
    _ ≤ nearest (100 + 2 * 2 ^ (-46 : Int)) := nearest_mono nonneg unrounded
    _ = 100 + 2 * 2 ^ (-46 : Int) := nearest_above_hundred 2 (by norm_num)

example : mean 21 (List.replicate 21 100.00000000000001) = (100.00000000000003 : Float) := by
  decide +kernel

end Hundreds

end TradingRules
