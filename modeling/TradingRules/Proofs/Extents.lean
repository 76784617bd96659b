import Mathlib
import TradingRules.Proofs.Differences
import TradingRules.Proofs.Rounding

/-!
# What numbers stand for

A binary64 number stands for a rational one, and an infinity is read as the least power of two that
is too great, on its side of zero. Of two numbers that are written with all the digits there is room
for, the one with the greater exponent is the greater one; so numbers are ordered as what they stand
for, and packing loses nothing but what is too great.
-/

namespace TradingRules

open Float.Model (UnpackedFloat Format)

namespace Unpacked

open Float.Model.UnpackedFloat hiding normalize round
open Binary64

/-- The least power of two that is too great for a number. -/
def beyond : Rat := 2 ^ (1024 : Int)

def extent : UnpackedFloat → Rat
  | .infinity .positive => beyond
  | .finite .positive m e _ => m * 2 ^ e
  | .zero _ | .notANumber => 0
  | .finite .negative m e _ => -(m * 2 ^ e)
  | .infinity .negative => -beyond

/-- A mantissa with all the digits there is room for, above the least exponent. -/
structure Digits (m : Nat) (e : Int) : Prop where
  fit : m < 2 ^ 53
  least : -1074 ≤ e
  full : e = -1074 ∨ 2 ^ 52 ≤ m

/-- What bits can stand for. -/
def Packed : UnpackedFloat → Prop
  | .finite _ m e _ => Digits m e ∧ e ≤ 971
  | _ => True

/-- The leading digit that is not written. -/
theorem toNat_leading (mantissa : BitVec 52) :
    (1#1 ++ mantissa).toNat = 2 ^ 52 + mantissa.toNat := by
  rw [BitVec.toNat_append, Nat.shiftLeft_eq, Nat.mul_comm]
  exact (Nat.two_pow_add_eq_or_of_lt mantissa.isLt 1).symm

theorem packed_unpack (bits : BitVec Format.binary64.numBits) :
    Packed (unpack Format.binary64 bits) := by
  unfold unpack
  dsimp only
  have exponent_lt : (unpackExponent bits).toNat < 2 ^ 11 := (unpackExponent bits).isLt
  have mantissa_lt : (unpackMantissa bits).toNat < 2 ^ 52 := (unpackMantissa bits).isLt
  have bias : (Format.binary64.exponentBias : Int) = 1023 := by decide
  by_cases top : unpackExponent bits = -1#_
  · rw [if_pos top]
    by_cases zero : unpackMantissa bits = 0#_
    · rw [if_pos zero]
      trivial
    · rw [if_neg zero]
      trivial
  · rw [if_neg top]
    have below_top : (unpackExponent bits).toNat ≠ 2047 := by
      intro same
      exact top (BitVec.eq_of_toNat_eq same)
    by_cases bottom : unpackExponent bits = 0#_
    · rw [if_pos bottom]
      by_cases zero : unpackMantissa bits = 0#_
      · rw [dif_pos zero]
        trivial
      · rw [dif_neg zero, bottom]
        exact ⟨⟨by omega, by decide, .inl (by decide)⟩, by decide⟩
    · rw [if_neg bottom]
      have above_bottom : (unpackExponent bits).toNat ≠ 0 := by
        intro same
        exact bottom (BitVec.eq_of_toNat_eq same)
      have mantissa := toNat_leading (unpackMantissa bits)
      refine ⟨⟨?_, ?_, .inr ?_⟩, ?_⟩ <;> omega

section Repacking

theorem repack_infinity (s : Sign) :
    unpack Format.binary64 (pack Format.binary64 (.infinity s)) = .infinity s := by
  cases s <;> rfl

theorem repack_zero (s : Sign) :
    unpack Format.binary64 (pack Format.binary64 (.zero s)) = .zero s := by
  cases s <;> rfl

theorem biased_eq (e : Int) :
    e + Format.binary64.exponentBias + Format.binary64.mantissaBitsWithoutImplicit = e + 1075 := by
  have bias : (Format.binary64.exponentBias : Int) = 1023 := by decide
  have bits : (Format.binary64.mantissaBitsWithoutImplicit : Int) = 52 := rfl
  omega

theorem finite_congr {s : Sign} {m n : Nat} {e k : Int} (positive : 0 < m) (same : m = n)
    (place : e = k) : UnpackedFloat.finite s m e positive = .finite s n k (same ▸ positive) := by
  subst same place
  rfl

theorem unpack_normal (s : Sign) {exponent : BitVec 11} (mantissa : BitVec 52)
    (below_top : exponent ≠ -1#_) (above_bottom : exponent ≠ 0#_) :
    unpack Format.binary64 (packComponents Format.binary64 s exponent mantissa) =
      .finite s (1#1 ++ mantissa).toNat ((exponent.toNat : Int) - 1075)
        (by rw [toNat_leading]; omega) := by
  unfold unpack
  simp only [unpackExponent_packComponents, unpackMantissa_packComponents,
    unpackSign_packComponents, Sign.ofBitVec_toBitVec, if_neg below_top, if_neg above_bottom]
  rfl

theorem unpack_subnormal (s : Sign) {mantissa : BitVec 52} (nonzero : mantissa ≠ 0#_) :
    unpack Format.binary64 (packComponents Format.binary64 s 0#_ mantissa) =
      .finite s mantissa.toNat (-1074) (BitVec.toNat_pos_of_ne_zero nonzero) := by
  have below_top : (0#11) ≠ -1#_ := by decide
  unfold unpack
  simp only [unpackExponent_packComponents, unpackMantissa_packComponents,
    unpackSign_packComponents, Sign.ofBitVec_toBitVec, if_neg below_top, dif_neg nonzero]
  rfl

/-- Packing keeps what is not too great. -/
theorem repack_finite (s : Sign) {m : Nat} {e : Int} (positive : 0 < m) (digits : Digits m e)
    (small : e ≤ 971) : unpack Format.binary64 (pack Format.binary64 (.finite s m e positive)) =
      .finite s m e positive := by
  have least := digits.least
  have fit := digits.fit
  unfold pack
  dsimp only
  rw [biased_eq, if_neg (by omega)]
  by_cases normal : m.log2 + 1 = Format.binary64.mantissaBits
  · rw [if_pos normal]
    have full : 2 ^ 52 ≤ m := (Nat.le_log2 (Nat.ne_of_gt positive)).mp (by
      change m.log2 + 1 = 53 at normal
      omega)
    have biased : (BitVec.ofNat 11 (e + 1075).toNat).toNat = (e + 1075).toNat := by
      rw [BitVec.toNat_ofNat, Nat.mod_eq_of_lt (by omega)]
    have below_top : BitVec.ofNat 11 (e + 1075).toNat ≠ -1#_ := by
      intro top
      rw [top] at biased
      change 2047 = _ at biased
      omega
    have above_bottom : BitVec.ofNat 11 (e + 1075).toNat ≠ 0#_ := by
      intro bottom
      rw [bottom] at biased
      change 0 = _ at biased
      omega
    refine (unpack_normal s (BitVec.ofNat 52 m) below_top above_bottom).trans
      (finite_congr _ ?_ ?_)
    · have rest : (BitVec.ofNat 52 m).toNat = m - 2 ^ 52 := by
        rw [BitVec.toNat_ofNat, Nat.mod_eq_sub_mod full, Nat.mod_eq_of_lt (by omega)]
      rw [toNat_leading, rest]
      omega
    · rw [biased]
      omega
  · rw [if_neg normal]
    have few : m < 2 ^ 52 := by
      have short : m.log2 < 52 := by
        have bound := (Nat.log2_lt (Nat.ne_of_gt positive)).mpr fit
        change ¬ m.log2 + 1 = 53 at normal
        omega
      exact (Nat.log2_lt (Nat.ne_of_gt positive)).mp short
    have mantissa : (BitVec.ofNat 52 m).toNat = m := by
      rw [BitVec.toNat_ofNat, Nat.mod_eq_of_lt few]
    have nonzero : BitVec.ofNat 52 m ≠ 0#_ := by
      intro zero
      rw [zero] at mantissa
      change 0 = m at mantissa
      omega
    refine (unpack_subnormal s nonzero).trans (finite_congr _ mantissa ?_)
    have := digits.full
    omega

theorem repack_large (s : Sign) {m : Nat} {e : Int} (positive : 0 < m) (large : 971 < e) :
    unpack Format.binary64 (pack Format.binary64 (.finite s m e positive)) = .infinity s := by
  have packed : pack Format.binary64 (.finite s m e positive) =
      packedInfinity Format.binary64 s := by
    unfold pack
    dsimp only
    rw [biased_eq, if_pos (by omega)]
  rw [packed]
  exact repack_infinity s

end Repacking

section Order

/-- What a number stands for can be told from its rank. -/
theorem extent_eq_of_rank {x y : UnpackedFloat} (same : rank x = rank y) : extent x = extent y := by
  have told : ∀ u : UnpackedFloat, extent u =
      match rank u with
      | (0, _, _) => 0
      | (1, e, m) => m * 2 ^ e
      | (-1, e, m) => m * 2 ^ (-e)
      | (c, _, _) => if 0 < c then beyond else -beyond := by
    intro u
    cases u with
    | notANumber => rfl
    | infinity s => cases s <;> rfl
    | zero s => rfl
    | finite s m e positive =>
      cases s with
      | positive => simp [rank, extent]
      | negative => simp [rank, extent]
  rw [told, told, same]

theorem compareRanks_eq_lt_iff {a b : Int × Int × Int} : compareRanks a b = .lt ↔
    a.1 < b.1 ∨ a.1 = b.1 ∧ (a.2.1 < b.2.1 ∨ a.2.1 = b.2.1 ∧ a.2.2 < b.2.2) := by
  unfold compareRanks compareLex compareOn
  simp only [Ordering.then_eq_lt, Int.compare_eq_lt, Int.compare_eq_eq]

/-- More digits place by place, or a greater place, stand for more. -/
theorem digits_lt {m n : Nat} {e k : Int} (left : Digits m e) (right : Digits n k)
    (below : e < k ∨ e = k ∧ m < n) : (m : Rat) * 2 ^ e < n * 2 ^ k := by
  rcases below with below | ⟨rfl, below⟩
  · have full : 2 ^ 52 ≤ n := by
      have := left.least
      have := right.full
      omega
    calc (m : Rat) * 2 ^ e < 2 ^ 53 * 2 ^ e := by
          refine mul_lt_mul_of_pos_right ?_ (unit_pos e)
          exact_mod_cast left.fit
      _ = 2 ^ 52 * 2 ^ (e + 1) := by
          rw [zpow_add₀ two_ne_zero]
          ring
      _ ≤ n * 2 ^ k := by
          refine mul_le_mul ?_ (zpow_le_zpow_right₀ (by norm_num) (by omega))
            (le_of_lt (unit_pos _)) (by positivity)
          exact_mod_cast full
  · refine mul_lt_mul_of_pos_right ?_ (unit_pos e)
    exact_mod_cast below

theorem digits_lt_beyond {m : Nat} {e : Int} (digits : Digits m e) (small : e ≤ 971) :
    (m : Rat) * 2 ^ e < beyond := by
  calc (m : Rat) * 2 ^ e < 2 ^ (53 : Int) * 2 ^ e := by
        refine mul_lt_mul_of_pos_right ?_ (unit_pos e)
        exact_mod_cast digits.fit
    _ = 2 ^ (53 + e) := (zpow_add₀ two_ne_zero _ _).symm
    _ ≤ beyond := zpow_le_zpow_right₀ (by norm_num) (by omega)

theorem digits_pos {m : Nat} (positive : 0 < m) (e : Int) : (0 : Rat) < m * 2 ^ e :=
  mul_pos (by exact_mod_cast positive) (unit_pos e)

theorem beyond_pos : 0 < beyond := unit_pos 1024

/-- The five classes of numbers lie in order. -/
theorem class_bounds {x : UnpackedFloat} (packed : Packed x) :
    (rank x).1 = -2 ∧ extent x = -beyond ∨
    (rank x).1 = -1 ∧ -beyond < extent x ∧ extent x < 0 ∨
    (rank x).1 = 0 ∧ extent x = 0 ∨
    (rank x).1 = 1 ∧ 0 < extent x ∧ extent x < beyond ∨
    (rank x).1 = 2 ∧ extent x = beyond := by
  cases x with
  | notANumber => exact .inr (.inr (.inl ⟨rfl, rfl⟩))
  | infinity s =>
    cases s with
    | positive => exact .inr (.inr (.inr (.inr ⟨rfl, rfl⟩)))
    | negative => exact .inl ⟨rfl, rfl⟩
  | zero s => exact .inr (.inr (.inl ⟨rfl, rfl⟩))
  | finite s m e positive =>
    have above := digits_pos positive e
    have below := digits_lt_beyond packed.1 packed.2
    cases s with
    | positive => exact .inr (.inr (.inr (.inl ⟨rfl, above, below⟩)))
    | negative => exact .inr (.inl ⟨rfl, neg_lt_neg below, neg_lt_zero.mpr above⟩)

theorem extent_lt_of_rank {x y : UnpackedFloat} (hx : Packed x) (hy : Packed y)
    (below : compareRanks (rank x) (rank y) = .lt) : extent x < extent y := by
  rcases compareRanks_eq_lt_iff.mp below with lower | ⟨same, finer⟩
  · have top := beyond_pos
    rcases class_bounds hx with ⟨c, x_extent⟩ | ⟨c, x_extent⟩ | ⟨c, x_extent⟩ | ⟨c, x_extent⟩ |
      ⟨c, x_extent⟩ <;>
    rcases class_bounds hy with ⟨d, y_extent⟩ | ⟨d, y_extent⟩ | ⟨d, y_extent⟩ | ⟨d, y_extent⟩ |
      ⟨d, y_extent⟩ <;>
    first | (exfalso; omega) | linarith
  · -- Within one class there is something to compare only between finite numbers.
    cases x with
    | finite s m e positive =>
      cases y with
      | finite t n k _ =>
        cases s with
        | positive =>
          cases t with
          | positive =>
            refine digits_lt hx.1 hy.1 ?_
            simp only [rank] at finer
            omega
          | negative => simp [rank] at same
        | negative =>
          cases t with
          | positive => simp [rank] at same
          | negative =>
            refine neg_lt_neg (digits_lt hy.1 hx.1 ?_)
            simp only [rank] at finer
            omega
      | notANumber => cases s <;> simp [rank] at same
      | infinity t => cases s <;> cases t <;> simp [rank] at same
      | zero t => cases s <;> simp [rank] at same
    | notANumber =>
      cases y with
      | finite t n k _ => cases t <;> simp [rank] at same
      | notANumber => simp [rank] at finer
      | infinity t => cases t <;> simp [rank] at same
      | zero t => simp [rank] at finer
    | infinity s =>
      cases y with
      | finite t n k _ => cases s <;> cases t <;> simp [rank] at same
      | notANumber => cases s <;> simp [rank] at same
      | infinity t => cases s <;> cases t <;> simp [rank] at same finer
      | zero t => cases s <;> simp [rank] at same
    | zero s =>
      cases y with
      | finite t n k _ => cases t <;> simp [rank] at same
      | notANumber => simp [rank] at finer
      | infinity t => cases t <;> simp [rank] at same
      | zero t => simp [rank] at finer

theorem compareRanks_eq_eq_iff {a b : Int × Int × Int} : compareRanks a b = .eq ↔ a = b := by
  unfold compareRanks compareLex compareOn
  simp only [Ordering.then_eq_eq, Int.compare_eq_eq, Prod.ext_iff]

/-- Numbers are ordered as what they stand for. -/
theorem isLE_iff_extent {x y : UnpackedFloat} (hx : Packed x) (hy : Packed y) :
    (compareRanks (rank x) (rank y)).isLE = true ↔ extent x ≤ extent y := by
  cases order : compareRanks (rank x) (rank y) with
  | lt => exact iff_of_true rfl (le_of_lt (extent_lt_of_rank hx hy order))
  | eq => exact iff_of_true rfl (le_of_eq (extent_eq_of_rank (compareRanks_eq_eq_iff.mp order)))
  | gt =>
    have turned : compareRanks (rank y) (rank x) = .lt := Std.OrientedCmp.gt_iff_lt.mp order
    exact iff_of_false (by decide) (not_le.mpr (extent_lt_of_rank hy hx turned))

end Order

end Unpacked

open Unpacked

/-- What a binary64 number stands for. -/
def extent (x : Float) : Rat := Unpacked.extent x.toModel.unpack

theorem packed_float (x : Float) : Packed x.toModel.unpack := packed_unpack _

theorem le_iff_extent {x y : Float} (hx : x.isNaN = false) (hy : y.isNaN = false) :
    x ≤ y ↔ extent x ≤ extent y := by
  rw [le_iff_rank hx hy]
  exact isLE_iff_extent (packed_float x) (packed_float y)

theorem lt_iff_extent {x y : Float} (hx : x.isNaN = false) (hy : y.isNaN = false) :
    x < y ↔ extent x < extent y := by
  rw [← not_iff_not, ← le_iff_not_lt hy hx, not_lt, le_iff_extent hy hx]

theorem beq_iff_extent {x y : Float} (hx : x.isNaN = false) (hy : y.isNaN = false) :
    (x == y) = true ↔ extent x = extent y := by
  have compared : (x == y) = (x.toModel.unpack.compare y.toModel.unpack == some .eq) := rfl
  rw [compared, compare_eq_compareRanks hx hy]
  cases order : compareRanks (rank x.toModel.unpack) (rank y.toModel.unpack) with
  | lt =>
    have below := extent_lt_of_rank (packed_float x) (packed_float y) order
    exact iff_of_false (by decide) (ne_of_lt below)
  | eq => exact iff_of_true rfl (extent_eq_of_rank (compareRanks_eq_eq_iff.mp order))
  | gt =>
    have turned := Std.OrientedCmp.gt_iff_lt.mp order
    have above := extent_lt_of_rank (packed_float y) (packed_float x) turned
    exact iff_of_false (by decide) (ne_of_gt above)

theorem isFinite_iff_extent {x : Float} (hx : x.isNaN = false) :
    x.isFinite = true ↔ |extent x| < beyond := by
  have classes := class_bounds (packed_float x)
  change x.toModel.unpack.isFinite = true ↔ |Unpacked.extent x.toModel.unpack| < beyond
  change x.toModel.unpack.isNaN = false at hx
  have top := beyond_pos
  rw [abs_lt]
  cases unpacked : x.toModel.unpack with
  | notANumber =>
    rw [unpacked] at hx
    cases hx
  | infinity s =>
    refine iff_of_false Bool.false_ne_true ?_
    cases s with
    | positive => exact fun inside => lt_irrefl _ inside.2
    | negative => exact fun inside => lt_irrefl _ inside.1
  | zero s => exact iff_of_true rfl ⟨neg_lt_zero.mpr top, top⟩
  | finite s m e positive =>
    rw [unpacked] at classes
    refine iff_of_true rfl ?_
    rcases classes with ⟨c, -⟩ | ⟨-, low, high⟩ | ⟨c, zero⟩ | ⟨-, low, high⟩ | ⟨c, -⟩
    · cases s <;> simp [rank] at c
    · exact ⟨low, lt_trans high top⟩
    · cases s <;> simp [rank] at c
    · exact ⟨lt_trans (neg_lt_zero.mpr top) low, high⟩
    · cases s <;> simp [rank] at c

theorem isNaN_false_of_isFinite {x : Float} (finite : x.isFinite = true) : x.isNaN = false :=
  isNaN_of_isFinite finite

theorem float_le_refl {x : Float} (number : x.isNaN = false) : x ≤ x :=
  (le_iff_extent number number).mpr (le_refl _)

theorem numbers_of_lt {x y : Float} (below : x < y) : x.isNaN = false ∧ y.isNaN = false := by
  constructor
  · refine Bool.eq_false_iff.mpr fun undefined => ?_
    exact (not_lt_of_isNaN undefined y).1 below
  · refine Bool.eq_false_iff.mpr fun undefined => ?_
    exact (not_lt_of_isNaN undefined x).2 below

theorem float_le_of_lt {x y : Float} (below : x < y) : x ≤ y := by
  obtain ⟨hx, hy⟩ := numbers_of_lt below
  exact (le_iff_extent hx hy).mpr (le_of_lt ((lt_iff_extent hx hy).mp below))

theorem float_lt_asymm {x y : Float} (below : x < y) : ¬ y < x := by
  obtain ⟨hx, hy⟩ := numbers_of_lt below
  exact (le_iff_not_lt hx hy).mp (float_le_of_lt below)

/-- Numbers above zero that stand for the same have the same bits; the two zeros do not. -/
theorem float_le_antisymm {x y : Float} (below : x ≤ y) (above : y ≤ x) (positive : 0 < x) :
    x = y := by
  obtain ⟨hx, hy⟩ := numbers_of_le below
  have level : extent x = extent y := by
    apply le_antisymm
    · exact (le_iff_extent hx hy).mp below
    · exact (le_iff_extent hy hx).mp above
  have alike : (x == y) = true := (beq_iff_extent hx hy).mpr level
  obtain ⟨-, -, same | ⟨zero, -⟩ | ⟨zero, -⟩⟩ := Float.beq_iff_ne_nan_and_eq.mp alike
  · exact same
  · rw [zero] at positive
    exact absurd positive (by decide)
  · rw [zero] at positive
    exact absurd positive (by decide)

theorem Unpacked.extent_abs (x : UnpackedFloat) : Unpacked.extent x.abs = |Unpacked.extent x| := by
  have top := abs_of_pos beyond_pos
  cases x with
  | notANumber => exact abs_zero.symm
  | zero s => exact abs_zero.symm
  | infinity s =>
    cases s with
    | positive => exact top.symm
    | negative => exact ((abs_neg beyond).trans top).symm
  | finite s m e positive =>
    have size := abs_of_pos (digits_pos positive e)
    cases s with
    | positive => exact size.symm
    | negative => exact ((abs_neg _).trans size).symm

/-- Without its sign a number is still one that bits can stand for. -/
theorem Unpacked.repack_abs {x : UnpackedFloat} (packed : Packed x) :
    UnpackedFloat.unpack Format.binary64 (UnpackedFloat.pack Format.binary64 x.abs) = x.abs := by
  cases x with
  | notANumber => exact UnpackedFloat.unpack_packedNaN
  | zero s => exact repack_zero .positive
  | infinity s => exact repack_infinity .positive
  | finite s m e positive => exact repack_finite .positive positive packed.1 packed.2

theorem extent_float_abs (x : Float) : extent x.abs = |extent x| := by
  change Unpacked.extent x.abs.toModel.unpack = |Unpacked.extent x.toModel.unpack|
  rw [unpack_abs, repack_abs (packed_float x), extent_abs]

end TradingRules
