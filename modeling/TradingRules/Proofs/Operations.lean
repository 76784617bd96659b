import TradingRules.Proofs.Roundings

/-!
# Sums, differences, products and quotients

Each operation on numbers gives what its exact result is rounded to, an infinity where that is too
great. A quotient by an infinity is zero, and a count is rounded as any other number.
-/

namespace TradingRules

open Float.Model (UnpackedFloat Format)

namespace Unpacked

open Float.Model (totalExponent)
open Float.Model.UnpackedFloat hiding normalize round
open Binary64

theorem writes_of_nonneg {x : UnpackedFloat} (packed : Packed x) (finite : x.isFinite = true)
    (nonneg : 0 ≤ extent x) : Writes (extent x) x := by
  cases x with
  | notANumber => cases finite
  | infinity s => cases finite
  | zero s => exact .zero s
  | finite s m e positive =>
    cases s with
    | positive => exact .digits positive packed.1
    | negative =>
      have below : extent (.finite .negative m e positive) < 0 :=
        neg_lt_zero.mpr (digits_pos positive e)
      exact absurd nonneg (not_le.mpr below)

/-- A finite number, written with an exponent that is no greater than its own. -/
theorem extent_at (s : Sign) {m : Nat} {e p : Int} (positive : 0 < m) (finer : p ≤ e) :
    extent (.finite s m e positive) =
      ((s.apply ((m <<< (e - p).toNat : Nat) : Int) : Int) : Rat) * 2 ^ p := by
  have place : e - ((e - p).toNat : Int) = p := by omega
  have shifted := digits_shiftLeft m (e - p).toNat e
  rw [place] at shifted
  cases s with
  | positive =>
    rw [Sign.apply, Int.cast_natCast, shifted]
    rfl
  | negative =>
    rw [Sign.apply, Int.cast_neg, Int.cast_natCast, neg_mul, shifted]
    rfl

/-- A difference that is not negative is rounded as it is. -/
theorem sub_writes {x y : UnpackedFloat} (hx : Packed x) (hy : Packed y)
    (x_finite : x.isFinite = true) (y_finite : y.isFinite = true) (ordered : extent y ≤ extent x) :
    Writes (nearest (extent x - extent y)) (sub Format.binary64 x y) := by
  cases x with
  | notANumber => cases x_finite
  | infinity s => cases x_finite
  | zero s =>
    cases y with
    | notANumber => cases y_finite
    | infinity t => cases y_finite
    | zero t =>
      have none : extent (.zero s) - extent (.zero t) = 0 := sub_self 0
      rw [none, nearest_zero]
      cases s <;> cases t <;> exact .zero _
    | finite t n k positive =>
      -- Zero less a number that is not positive.
      cases t with
      | positive => exact absurd ordered (not_le.mpr (digits_pos positive k))
      | negative =>
        have writes : Writes (n * 2 ^ k) (.finite .positive n k positive) := .digits positive hy.1
        have difference : extent (.zero s) - extent (.finite .negative n k positive) = n * 2 ^ k :=
          (zero_sub _).trans (neg_neg _)
        rw [difference, writes.nearest_eq]
        exact writes
  | finite s m e positive =>
    cases y with
    | notANumber => cases y_finite
    | infinity t => cases y_finite
    | zero t =>
      have difference : extent (.finite s m e positive) - extent (.zero t) =
        extent (.finite s m e positive) := sub_zero _
      have writes := writes_of_nonneg hx rfl ordered
      rw [difference, writes.nearest_eq]
      exact writes
    | finite t n k positive' =>
      rw [extent_at s positive (min_le_left e k),
        extent_at t positive' (min_le_right e k)] at ordered
      have whole := le_of_mul_le_mul_right ordered (unit_pos (min e k))
      rw [extent_at s positive (min_le_left e k), extent_at t positive' (min_le_right e k),
        ← sub_mul, ← Int.cast_sub]
      exact normalize_writes (by exact_mod_cast sub_nonneg.mpr whole) (min e k)

theorem add_writes {p q : Rat} {x y : UnpackedFloat} (hx : Writes p x) (hy : Writes q y) :
    Writes (nearest (p + q)) (add Format.binary64 x y) := by
  cases hx with
  | zero s =>
    cases hy with
    | zero t =>
      rw [add_zero, nearest_zero]
      cases s <;> cases t <;> exact .zero _
    | digits positive digits =>
      rw [zero_add, (Writes.digits positive digits).nearest_eq]
      exact .digits positive digits
  | @digits m e positive digits =>
    cases hy with
    | zero t =>
      rw [add_zero, (Writes.digits positive digits).nearest_eq]
      exact .digits positive digits
    | @digits n k positive' digits' =>
      have left := extent_at .positive positive (min_le_left e k)
      have right := extent_at .positive positive' (min_le_right e k)
      change (m : Rat) * 2 ^ e = _ at left
      change (n : Rat) * 2 ^ k = _ at right
      rw [left, right, ← add_mul, ← Int.cast_add]
      have nonneg := Int.add_nonneg (Int.natCast_nonneg (m <<< (e - min e k).toNat))
        (Int.natCast_nonneg (n <<< (k - min e k).toNat))
      exact normalize_writes nonneg (min e k)

theorem mul_writes {p q : Rat} {x y : UnpackedFloat} (hx : Writes p x) (hy : Writes q y) :
    Writes (nearest (p * q)) (mul Format.binary64 x y) := by
  cases hx with
  | zero s =>
    rw [zero_mul, nearest_zero]
    cases hy with
    | zero t => exact .zero _
    | digits positive digits => exact .zero _
  | @digits m e positive digits =>
    cases hy with
    | zero t =>
      rw [mul_zero, nearest_zero]
      exact .zero _
    | @digits n k positive' digits' =>
      have product : (m : Rat) * 2 ^ e * (n * 2 ^ k) = ((m * n : Nat) : Rat) * 2 ^ (e + k) := by
        rw [Nat.cast_mul, zpow_add₀ two_ne_zero]
        ring
      have product_pos : 0 < m * n := Nat.mul_pos positive positive'
      have aim := targetExponent_eq_place_of_pos product_pos (floor_digits (m * n) (e + k))
      rw [targetExponent_eq] at aim
      -- One factor has all its digits, or the place of the product is far below the least one.
      have fine : e + k ≤ place (((m * n : Nat) : Rat) * 2 ^ (e + k)) := by
        rcases Nat.lt_or_ge (m * n) (2 ^ 52) with few | many
        · have m_few : m < 2 ^ 52 := lt_of_le_of_lt (Nat.le_mul_of_pos_right m positive') few
          have := digits.full
          have := digits'.full
          have n_few : n < 2 ^ 52 := lt_of_le_of_lt (Nat.le_mul_of_pos_left n positive) few
          omega
        · have log := (Nat.le_log2 (Nat.ne_of_gt product_pos)).mpr many
          omega
      rw [product]
      refine roundWithAccuracy_writes (digits_pos product_pos _) ?_ fine
      rw [mul_div_cancel_right₀ _ (ne_of_gt (unit_pos _))]
      exact shows_exact (m * n)

/-- A quotient is at least half of the quotient of the leading digits. -/
theorem le_log_div {m n : Nat} (m_pos : 0 < m) (n_pos : 0 < n) (e k : Int) :
    totalExponent m e - totalExponent n k - 1 ≤ Int.log 2 ((m : Rat) * 2 ^ e / (n * 2 ^ k)) := by
  refine (Int.zpow_le_iff_le_log (by norm_num) (div_pos (digits_pos m_pos e)
    (digits_pos n_pos k))).mp ?_
  have leading : ((2 ^ m.log2 : Nat) : Rat) ≤ m := by
    exact_mod_cast Nat.log2_self_le (Nat.ne_of_gt m_pos)
  have next : (n : Rat) ≤ ((2 ^ (n.log2 + 1) : Nat) : Rat) := by
    exact_mod_cast le_of_lt Nat.lt_log2_self
  rw [Nat.cast_ofNat, le_div_iff₀ (digits_pos n_pos k)]
  calc (2 : Rat) ^ (totalExponent m e - totalExponent n k - 1) * (n * 2 ^ k)
      ≤ 2 ^ (totalExponent m e - totalExponent n k - 1) *
          (((2 ^ (n.log2 + 1) : Nat) : Rat) * 2 ^ k) :=
        mul_le_mul_of_nonneg_left (mul_le_mul_of_nonneg_right next (le_of_lt (unit_pos k)))
          (le_of_lt (unit_pos _))
    _ = ((2 ^ m.log2 : Nat) : Rat) * 2 ^ e := by
        rw [Nat.cast_pow, Nat.cast_pow, Nat.cast_ofNat, ← zpow_natCast, ← zpow_natCast,
          ← zpow_add₀ two_ne_zero, ← zpow_add₀ two_ne_zero, ← zpow_add₀ two_ne_zero]
        congr 1
        unfold totalExponent
        omega
    _ ≤ m * 2 ^ e := mul_le_mul_of_nonneg_right leading (le_of_lt (unit_pos e))

theorem div_writes {p q : Rat} {x y : UnpackedFloat} (hx : Writes p x) (hy : Writes q y)
    (nonzero : q ≠ 0) : Writes (nearest (p / q)) (div Format.binary64 x y) := by
  cases hy with
  | zero t => exact absurd rfl nonzero
  | @digits n k n_pos digits' =>
    cases hx with
    | zero s =>
      rw [zero_div, nearest_zero]
      exact .zero _
    | @digits m e m_pos digits =>
      let target := min (e - k)
        (Format.binary64.targetExponent (totalExponent m e - totalExponent n k))
      let dividend := m <<< (e - k - target).toNat
      have place_eq : e - ((e - k - target).toNat : Int) = k + target := by
        have := min_le_left (e - k)
          (Format.binary64.targetExponent (totalExponent m e - totalExponent n k))
        omega
      have finer := digits_shiftLeft m (e - k - target).toNat e
      rw [place_eq] at finer
      have n_ne : (n : Rat) ≠ 0 := by exact_mod_cast Nat.ne_of_gt n_pos
      have quotient : (m : Rat) * 2 ^ e / (n * 2 ^ k) / 2 ^ target =
          ((dividend / n : Nat) : Rat) + (dividend % n : Nat) / n := by
        have whole : (dividend : Rat) = n * (dividend / n : Nat) + (dividend % n : Nat) := by
          exact_mod_cast (Nat.div_add_mod dividend n).symm
        have divisor_ne : (n : Rat) * 2 ^ k * 2 ^ target ≠ 0 :=
          ne_of_gt (mul_pos (digits_pos n_pos k) (unit_pos target))
        rw [← finer, zpow_add₀ two_ne_zero, div_div, div_eq_iff divisor_ne, whole]
        field_simp
      have fine : target ≤ place ((m : Rat) * 2 ^ e / (n * 2 ^ k)) := by
        have log := le_log_div m_pos n_pos e k
        have aimed : target ≤ Format.binary64.targetExponent
            (totalExponent m e - totalExponent n k) := min_le_right _ _
        have least : Format.binary64.minExponent = -1074 := by decide
        have bits : (Format.binary64.mantissaBits : Int) = 53 := by decide
        unfold Format.targetExponent at aimed
        unfold place
        omega
      refine roundWithAccuracy_writes (div_pos (digits_pos m_pos e) (digits_pos n_pos k)) ?_ fine
      rw [quotient]
      exact shows_fraction _ (Nat.mod_lt _ n_pos)

/-- A count too great for the quick way is rounded once. -/
theorem ofScientific_writes {n : Nat} (positive : 0 < n) :
    Writes (nearest n) (ofScientific Format.binary64 n 0) := by
  have value : (n : Rat) / (2 : Rat) ^ (-53 : Int) = ((n <<< 53 * 1 : Nat) : Rat) := by
    rw [mul_one, Nat.shiftLeft_eq, Nat.cast_mul, Nat.cast_pow, Nat.cast_ofNat, zpow_neg,
      div_inv_eq_mul]
    rfl
  have log : 0 ≤ Int.log 2 (n : Rat) := by
    rw [Int.log_natCast]
    exact Int.natCast_nonneg _
  have fine : -53 ≤ place n := by
    unfold place
    omega
  have scaled : ofScientific Format.binary64 n 0 =
      roundWithAccuracy Format.binary64 .positive (n <<< 53 * 1) (-53) .exact := by
    have not_huge : ¬ (0 : Int) > 2 ^ Format.binary64.exponentBits := by decide
    have not_tiny : ¬ (0 : Int) < -((2 ^ Format.binary64.exponentBits : Int) + n.log2) := by
      have : (0 : Int) ≤ 2 ^ Format.binary64.exponentBits := by decide
      omega
    unfold ofScientific
    rw [dif_neg (Nat.ne_of_gt positive), if_neg not_huge, if_neg not_tiny, if_pos (le_refl 0)]
    rfl
  rw [scaled]
  refine roundWithAccuracy_writes (by exact_mod_cast positive) ?_ fine
  rw [value]
  exact shows_exact _

end Unpacked

open Unpacked Binary64

/-- The number that an exact result is rounded to. -/
structure Rounds (x : Float) (q : Rat) : Prop where
  number : x.isNaN = false
  extent : extent x = min (nearest q) beyond

theorem Unpacked.Writes.rounds {q : Rat} {x : UnpackedFloat} (writes : Writes (nearest q) x) :
    Rounds (Float.ofModel (.pack x)) q :=
  ⟨writes.repacked.1, writes.repacked.2⟩

namespace Rounds

variable {x y : Float} {p q : Rat}

theorem le (hx : Rounds x p) (hy : Rounds y q) (nonneg : 0 ≤ p) (ordered : p ≤ q) : x ≤ y := by
  rw [le_iff_extent hx.number hy.number, hx.extent, hy.extent]
  exact min_le_min_right _ (nearest_mono nonneg ordered)

theorem extent_nonneg (hx : Rounds x q) (nonneg : 0 ≤ q) : 0 ≤ TradingRules.extent x := by
  rw [hx.extent]
  exact le_min (nearest_nonneg nonneg) (le_of_lt beyond_pos)

/-- A result is finite exactly if it is not rounded to what is too great. -/
theorem isFinite_iff (hx : Rounds x q) (nonneg : 0 ≤ q) :
    x.isFinite = true ↔ nearest q < beyond := by
  rw [isFinite_iff_extent hx.number, abs_of_nonneg (hx.extent_nonneg nonneg), hx.extent]
  exact min_lt_iff.trans (or_iff_left (lt_irrefl _))

theorem extent_eq (hx : Rounds x q) (nonneg : 0 ≤ q) (finite : x.isFinite = true) :
    TradingRules.extent x = nearest q := by
  rw [hx.extent, min_eq_left (le_of_lt ((hx.isFinite_iff nonneg).mp finite))]

end Rounds

section Arithmetic

variable {x y : Float}

theorem writes_float (finite : x.isFinite = true) (nonneg : 0 ≤ extent x) :
    Writes (extent x) x.toModel.unpack :=
  writes_of_nonneg (packed_float x) finite nonneg

theorem rounds_sub (hx : x.isFinite = true) (hy : y.isFinite = true)
    (ordered : extent y ≤ extent x) :
    Rounds (x - y) (extent x - extent y) :=
  (sub_writes (packed_float x) (packed_float y) hx hy ordered).rounds

theorem rounds_add (hx : x.isFinite = true) (hy : y.isFinite = true) (x_nonneg : 0 ≤ extent x)
    (y_nonneg : 0 ≤ extent y) : Rounds (x + y) (extent x + extent y) :=
  (add_writes (writes_float hx x_nonneg) (writes_float hy y_nonneg)).rounds

theorem rounds_mul (hx : x.isFinite = true) (hy : y.isFinite = true) (x_nonneg : 0 ≤ extent x)
    (y_nonneg : 0 ≤ extent y) : Rounds (x * y) (extent x * extent y) :=
  (mul_writes (writes_float hx x_nonneg) (writes_float hy y_nonneg)).rounds

theorem rounds_div (hx : x.isFinite = true) (hy : y.isFinite = true) (x_nonneg : 0 ≤ extent x)
    (y_pos : 0 < extent y) : Rounds (x / y) (extent x / extent y) :=
  (div_writes (writes_float hx x_nonneg) (writes_float hy (le_of_lt y_pos)) (ne_of_gt y_pos)).rounds

/-- Nothing is left of a finite number divided by an infinity. -/
theorem rounds_div_infinity (hx : x.isFinite = true) (hy : y.isInf = true) : Rounds (x / y) 0 := by
  have zero : ∃ s, Float.Model.UnpackedFloat.div Format.binary64 x.toModel.unpack y.toModel.unpack =
      .zero s := by
    change x.toModel.unpack.isFinite = true at hx
    change y.toModel.unpack.isInf = true at hy
    cases unpacked : y.toModel.unpack with
    | notANumber => rw [unpacked] at hy; cases hy
    | zero t => rw [unpacked] at hy; cases hy
    | finite t n k positive => rw [unpacked] at hy; cases hy
    | infinity t =>
      cases unpacked' : x.toModel.unpack with
      | notANumber => rw [unpacked'] at hx; cases hx
      | infinity s => rw [unpacked'] at hx; cases hx
      | zero s => exact ⟨_, rfl⟩
      | finite s m e positive => exact ⟨_, rfl⟩
  obtain ⟨s, divided⟩ := zero
  have writes : Writes (nearest 0) (.zero s) := by
    rw [nearest_zero]
    exact .zero s
  rw [← divided] at writes
  exact writes.rounds

/-- Dividing a finite number gives a finite quotient or, by an infinity, nothing. -/
theorem rounds_quotient (hx : x.isFinite = true) (x_nonneg : 0 ≤ extent x) (hy : y.isNaN = false)
    (y_pos : 0 < extent y) :
    Rounds (x / y) (if y.isFinite then extent x / extent y else 0) := by
  split
  · rename_i y_finite
    exact rounds_div hx y_finite x_nonneg y_pos
  · rename_i y_infinite
    refine rounds_div_infinity hx ?_
    change y.toModel.unpack.isNaN = false at hy
    change ¬ y.toModel.unpack.isFinite = true at y_infinite
    change y.toModel.unpack.isInf = true
    cases unpacked : y.toModel.unpack with
    | notANumber => rw [unpacked] at hy; cases hy
    | infinity t => rfl
    | zero t => rw [unpacked] at y_infinite; exact absurd rfl y_infinite
    | finite t n k positive => rw [unpacked] at y_infinite; exact absurd rfl y_infinite

theorem isFinite_repack {u : UnpackedFloat} (infinite : u.isFinite = false) :
    (Float.ofModel (.pack u)).isFinite = false := by
  cases u with
  | notANumber => rfl
  | infinity s => cases s <;> rfl
  | zero s => cases infinite
  | finite s m e positive => cases infinite

/-- No factor brings back what is not finite. -/
theorem isFinite_mul (hy : y.isFinite = false) : (x * y).isFinite = false := by
  refine isFinite_repack ?_
  change y.toModel.unpack.isFinite = false at hy
  cases unpacked : y.toModel.unpack with
  | notANumber => cases x.toModel.unpack <;> rfl
  | infinity t => cases x.toModel.unpack <;> rfl
  | zero t => rw [unpacked] at hy; cases hy
  | finite t n k positive => rw [unpacked] at hy; cases hy

/-- Nor does any divisor. -/
theorem isFinite_div (hx : x.isFinite = false) : (x / y).isFinite = false := by
  refine isFinite_repack ?_
  change x.toModel.unpack.isFinite = false at hx
  cases unpacked : x.toModel.unpack with
  | notANumber => cases y.toModel.unpack <;> rfl
  | infinity t => cases y.toModel.unpack <;> rfl
  | zero t => rw [unpacked] at hx; cases hx
  | finite t n k positive => rw [unpacked] at hx; cases hx

/-- Nor does anything that is added. -/
theorem isFinite_add (infinite : x.isFinite = false ∨ y.isFinite = false) :
    (x + y).isFinite = false := by
  refine isFinite_repack ?_
  change x.toModel.unpack.isFinite = false ∨ y.toModel.unpack.isFinite = false at infinite
  rcases infinite with hx | hy
  · cases unpacked : x.toModel.unpack with
    | notANumber => cases y.toModel.unpack <;> rfl
    | infinity s =>
      cases y.toModel.unpack with
      | infinity t => cases s <;> cases t <;> rfl
      | notANumber => rfl
      | zero t => rfl
      | finite t n k positive => rfl
    | zero s => rw [unpacked] at hx; cases hx
    | finite s m e positive => rw [unpacked] at hx; cases hx
  · cases unpacked : y.toModel.unpack with
    | notANumber => cases x.toModel.unpack <;> rfl
    | infinity t =>
      cases x.toModel.unpack with
      | infinity s => cases s <;> cases t <;> rfl
      | notANumber => rfl
      | zero s => rfl
      | finite s m e positive => rfl
    | zero t => rw [unpacked] at hy; cases hy
    | finite t n k positive => rw [unpacked] at hy; cases hy

theorem rounds_self (hx : x.isFinite = true) (nonneg : 0 ≤ extent x) : Rounds x (extent x) := by
  have number := isNaN_false_of_isFinite hx
  have below := (isFinite_iff_extent number).mp hx
  rw [abs_of_nonneg nonneg] at below
  refine ⟨number, ?_⟩
  rw [(writes_float hx nonneg).nearest_eq, min_eq_left (le_of_lt below)]

theorem extent_one : extent (Float.exactlyRepresentablePowersOfTen[0]) = 1 := by
  have unpacked : (Float.exactlyRepresentablePowersOfTen[0]).toModel.unpack =
      .finite .positive (2 ^ 52) (-52) (by decide) := rfl
  rw [extent, unpacked]
  change ((2 ^ 52 : Nat) : Rat) * 2 ^ (-52 : Int) = 1
  norm_num

theorem nearest_natCast {n : Nat} (few : n < 2 ^ 53) : nearest n = n := by
  have exact_digits := nearest_of_digits few (by norm_num : (-1074 : Int) ≤ 0)
  rwa [zpow_zero, mul_one] at exact_digits

theorem natCast_lt_beyond {n : Nat} (few : n < 2 ^ 53) : (n : Rat) < beyond := by
  calc (n : Rat) < 2 ^ (53 : Int) := by exact_mod_cast few
    _ ≤ beyond := zpow_le_zpow_right₀ (by norm_num) (by norm_num)

theorem rounds_ofNat (n : Nat) : Rounds (Float.ofNat n) n := by
  unfold Float.ofNat
  change Rounds (Float.ofScientific n false 0) n
  unfold Float.ofScientific
  split
  · -- A count with few digits is written as it is and multiplied by one.
    rename_i quick
    have word : (n.toUInt64.toNat : Rat) = n :=
      congrArg Nat.cast (Nat.mod_eq_of_lt (show n < 2 ^ 64 by omega))
    have writes := normalize_writes (Int.natCast_nonneg n.toUInt64.toNat) 0
    rw [zpow_zero, mul_one, Int.cast_natCast, word] at writes
    have whole : Rounds n.toUInt64.toFloat n := writes.rounds
    have nonneg : (0 : Rat) ≤ n := Nat.cast_nonneg n
    have finite : n.toUInt64.toFloat.isFinite = true := by
      rw [whole.isFinite_iff nonneg, nearest_natCast quick.1]
      exact natCast_lt_beyond quick.1
    have extent_n := whole.extent_eq nonneg finite
    rw [nearest_natCast quick.1] at extent_n
    have one_finite : Float.exactlyRepresentablePowersOfTen[0].isFinite = true := rfl
    have one_nonneg : 0 ≤ extent Float.exactlyRepresentablePowersOfTen[0] := by
      rw [extent_one]
      norm_num
    have product := rounds_mul finite one_finite (whole.extent_nonneg nonneg) one_nonneg
    rw [extent_n, extent_one, mul_one] at product
    exact product
  · rename_i slow
    exact (ofScientific_writes (by omega)).rounds

end Arithmetic

end TradingRules
