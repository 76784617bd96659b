import TradingRules.Json

/-!
# Numbers of documents

A number in a document is never the one that compares with nothing: a real one is finite, and a
whole one is rounded to a number or to an infinity. Two of them are therefore ordered one way or the
other. Numbers are ordered as their ranks are, so their order is transitive; and to be at most
something says more than not to be above it, namely that both are numbers.
-/

namespace TradingRules

open Float.Model (UnpackedFloat Format)

namespace Unpacked

open Float.Model.UnpackedFloat hiding normalize round

/-- Where a number stands: its class and, if it is finite, its exponent and its mantissa, both
turned round below zero. -/
def rank : UnpackedFloat → Int × Int × Int
  | .infinity .negative => (-2, 0, 0)
  | .finite .negative m e _ => (-1, -e, -m)
  | .zero _ => (0, 0, 0)
  | .finite .positive m e _ => (1, e, m)
  | .infinity .positive => (2, 0, 0)
  | .notANumber => (0, 0, 0)

def compareRanks : Int × Int × Int → Int × Int × Int → Ordering :=
  compareLex (compareOn (·.1)) (compareLex (compareOn (·.2.1)) (compareOn (·.2.2)))

instance : Std.TransCmp compareRanks := by
  unfold compareRanks
  infer_instance

theorem compare_neg (a b : Int) : compare (-a) (-b) = (compare a b).swap := by
  rcases Int.lt_trichotomy a b with below | rfl | above
  · rw [Int.compare_eq_lt.mpr below, Int.compare_eq_gt.mpr (Int.neg_lt_neg below)]
    rfl
  · simp
  · rw [Int.compare_eq_gt.mpr above, Int.compare_eq_lt.mpr (Int.neg_lt_neg above)]
    rfl

theorem compare_natCast (m n : Nat) : compare (m : Int) n = compare m n := by
  rcases Nat.lt_trichotomy m n with below | rfl | above
  · rw [Int.compare_eq_lt.mpr (Int.ofNat_lt.mpr below), Nat.compare_eq_lt.mpr below]
  · simp
  · rw [Int.compare_eq_gt.mpr (Int.ofNat_lt.mpr above), Nat.compare_eq_gt.mpr above]

/-- Numbers are compared as their ranks are. -/
theorem compare_eq_compareRanks {x y : UnpackedFloat} (hx : x.isNaN = false)
    (hy : y.isNaN = false) : x.compare y = some (compareRanks (rank x) (rank y)) := by
  cases x with
  | notANumber => cases hx
  | infinity s =>
    cases y with
    | notANumber => cases hy
    | infinity t => cases s <;> cases t <;> rfl
    | zero t => cases s <;> rfl
    | finite t n k _ => cases s <;> cases t <;> rfl
  | zero s =>
    cases y with
    | notANumber => cases hy
    | infinity t => cases t <;> rfl
    | zero t => rfl
    | finite t n k _ => cases t <;> rfl
  | finite s m e hm =>
    cases y with
    | notANumber => cases hy
    | infinity t => cases s <;> cases t <;> rfl
    | zero t => cases s <;> rfl
    | finite t n k hn =>
      -- Only two finite numbers of one sign come down to their exponents and mantissas.
      cases s with
      | negative =>
        cases t with
        | negative =>
          have ranks : compareRanks (rank (.finite .negative m e hm))
              (rank (.finite .negative n k hn)) =
                (compare (-e) (-k)).then (compare (-(m : Int)) (-n)) := rfl
          rw [ranks, compare_neg, compare_neg, compare_natCast, ← Ordering.swap_then]
          rfl
        | positive => rfl
      | positive =>
        cases t with
        | negative => rfl
        | positive =>
          have ranks : compareRanks (rank (.finite .positive m e hm))
              (rank (.finite .positive n k hn)) =
                (compare e k).then (compare (m : Int) n) := rfl
          rw [ranks, compare_natCast]
          rfl

theorem compare_eq_none {x y : UnpackedFloat} (undefined : x.isNaN = true ∨ y.isNaN = true) :
    x.compare y = none := by
  rcases undefined with undefined | undefined
  · cases x with
    | notANumber => rfl
    | infinity s => cases undefined
    | zero s => cases undefined
    | finite s m e positive => cases undefined
  · cases y with
    | notANumber => cases x <;> rfl
    | infinity s => cases undefined
    | zero s => cases undefined
    | finite s m e positive => cases undefined

theorem isNaN_of_isFinite {x : UnpackedFloat} (finite : x.isFinite = true) : x.isNaN = false := by
  cases x <;> first | rfl | cases finite

theorem isNaN_dite {p : Prop} [Decidable p] {x : p → UnpackedFloat} {y : ¬ p → UnpackedFloat}
    (holds : ∀ h, (x h).isNaN = false) (fails : ∀ h, (y h).isNaN = false) :
    (if h : p then x h else y h).isNaN = false := by
  by_cases h : p
  · rw [dif_pos h]
    exact holds h
  · rw [dif_neg h]
    exact fails h

theorem isNaN_roundWithAccuracy (format : Format) (sign : Sign) (mantissa : Nat) (exponent : Int)
    (accuracy : Accuracy) :
    (roundWithAccuracy format sign mantissa exponent accuracy).isNaN = false := by
  unfold roundWithAccuracy
  exact isNaN_dite (fun _ => rfl) (fun _ => rfl)

theorem isNaN_normalize (format : Format) (mantissa exponent : Int) (zeroSign : Sign) :
    (UnpackedFloat.normalize format mantissa exponent zeroSign).isNaN = false := by
  unfold UnpackedFloat.normalize UnpackedFloat.round
  dsimp only
  split <;> first | rfl | exact isNaN_roundWithAccuracy ..

theorem isNaN_mul_finite (format : Format) {x : UnpackedFloat} (number : x.isNaN = false)
    (sign : Sign) (mantissa : Nat) (exponent : Int) (positive : 0 < mantissa) :
    (mul format x (.finite sign mantissa exponent positive)).isNaN = false := by
  cases x with
  | notANumber => cases number
  | infinity s => rfl
  | zero s => rfl
  | finite s m e h => exact isNaN_roundWithAccuracy ..

theorem isNaN_neg (x : UnpackedFloat) : x.neg.isNaN = x.isNaN := by
  cases x <;> rfl

theorem isNaN_unpack (format : Format) {bits : BitVec format.numBits}
    (number : unpackExponent bits = -1#_ → unpackMantissa bits = 0#_) :
    (unpack format bits).isNaN = false := by
  unfold unpack
  dsimp only
  by_cases top : unpackExponent bits = -1#_
  · rw [if_pos top, if_pos (number top)]
    rfl
  · rw [if_neg top]
    by_cases bottom : unpackExponent bits = 0#_
    · rw [if_pos bottom]
      by_cases zero : unpackMantissa bits = 0#_
      · rw [dif_pos zero]
        rfl
      · rw [dif_neg zero]
        rfl
    · rw [if_neg bottom]
      rfl

theorem isNaN_unpack_packComponents (format : Format) (sign : Sign)
    {exponent : BitVec format.exponentBits} {mantissa : BitVec format.mantissaBitsWithoutImplicit}
    (number : exponent = -1#_ → mantissa = 0#_) :
    (unpack format (packComponents format sign exponent mantissa)).isNaN = false := by
  apply isNaN_unpack
  rw [unpackExponent_packComponents, unpackMantissa_packComponents]
  exact number

theorem isNaN_ofScientific (format : Format) (n : Nat) :
    (ofScientific format n 0).isNaN = false := by
  unfold ofScientific
  refine isNaN_dite (fun _ => rfl) fun nonzero => ?_
  by_cases huge : (0 : Int) > 2 ^ format.exponentBits
  · rw [if_pos huge]
    rfl
  · rw [if_neg huge]
    by_cases tiny : (0 : Int) < -((2 ^ format.exponentBits : Int) + n.log2)
    · rw [if_pos tiny]
      rfl
    · rw [if_neg tiny, if_pos (Int.le_refl 0)]
      exact isNaN_mul_finite format rfl ..

/-- Packing loses no number: only what is none is packed as none. -/
theorem isNaN_unpack_pack (format : Format) (x : UnpackedFloat) (number : x.isNaN = false) :
    (unpack format (pack format x)).isNaN = false := by
  have below_top : ∀ n, n + 1 < 2 ^ format.exponentBits →
      BitVec.ofNat format.exponentBits n ≠ -1#_ := by
    intro n small top
    have value := congrArg BitVec.toNat top
    rw [BitVec.neg_one_eq_allOnes, BitVec.toNat_allOnes, BitVec.toNat_ofNat,
      Nat.mod_eq_of_lt (by omega)] at value
    omega
  have room : 0 + 1 < 2 ^ format.exponentBits :=
    Nat.one_lt_two_pow (Nat.pos_iff_ne_zero.mp format.he)
  cases x with
  | notANumber => cases number
  | infinity s => exact isNaN_unpack_packComponents format s fun _ => rfl
  | zero s => exact isNaN_unpack_packComponents format s fun _ => rfl
  | finite s m e positive =>
    unfold pack
    dsimp only
    split
    · exact isNaN_unpack_packComponents format s fun _ => rfl
    · rename_i small
      split
      · exact isNaN_unpack_packComponents format s fun top => absurd top (below_top _ (by omega))
      · exact isNaN_unpack_packComponents format s fun top => absurd top (below_top 0 room)

end Unpacked

open Unpacked

theorem le_iff_compare {x y : Float} :
    x ≤ y ↔ (x.toModel.unpack.compare y.toModel.unpack).any (·.isLE) = true :=
  decide_eq_true_iff

theorem lt_iff_compare {x y : Float} :
    x < y ↔ (x.toModel.unpack.compare y.toModel.unpack == some .lt) = true :=
  decide_eq_true_iff

theorem le_iff_rank {x y : Float} (hx : x.isNaN = false) (hy : y.isNaN = false) :
    x ≤ y ↔ (compareRanks (rank x.toModel.unpack) (rank y.toModel.unpack)).isLE = true := by
  rw [le_iff_compare, compare_eq_compareRanks hx hy, Option.any_some]

/-- Of two numbers one is below the other or not above it. -/
theorem le_iff_not_lt {x y : Float} (hx : x.isNaN = false) (hy : y.isNaN = false) :
    x ≤ y ↔ ¬ y < x := by
  have turned : compareRanks (rank y.toModel.unpack) (rank x.toModel.unpack) =
      (compareRanks (rank x.toModel.unpack) (rank y.toModel.unpack)).swap :=
    Std.OrientedCmp.eq_swap
  rw [le_iff_rank hx hy, lt_iff_compare, compare_eq_compareRanks hy hx, turned]
  cases compareRanks (rank x.toModel.unpack) (rank y.toModel.unpack) <;> decide

/-- What is no number is neither below nor above anything. -/
theorem not_lt_of_isNaN {x : Float} (undefined : x.isNaN = true) (y : Float) :
    ¬ x < y ∧ ¬ y < x := by
  rw [lt_iff_compare, lt_iff_compare, compare_eq_none (.inl undefined),
    compare_eq_none (.inr undefined)]
  decide

theorem not_le_of_isNaN {x : Float} (undefined : x.isNaN = true) (y : Float) :
    ¬ x ≤ y ∧ ¬ y ≤ x := by
  rw [le_iff_compare, le_iff_compare, compare_eq_none (.inl undefined),
    compare_eq_none (.inr undefined)]
  decide

theorem numbers_of_le {x y : Float} (ordered : x ≤ y) : x.isNaN = false ∧ y.isNaN = false := by
  constructor
  · refine Bool.eq_false_iff.mpr fun undefined => ?_
    exact (not_le_of_isNaN undefined y).1 ordered
  · refine Bool.eq_false_iff.mpr fun undefined => ?_
    exact (not_le_of_isNaN undefined x).2 ordered

theorem le_iff_numbers_and_not_lt {x y : Float} :
    x ≤ y ↔ (x.isNaN = false ∧ y.isNaN = false) ∧ ¬ y < x := by
  constructor
  · intro ordered
    have numbers := numbers_of_le ordered
    exact ⟨numbers, (le_iff_not_lt numbers.1 numbers.2).mp ordered⟩
  · rintro ⟨⟨hx, hy⟩, unordered⟩
    exact (le_iff_not_lt hx hy).mpr unordered

theorem float_le_trans {x y z : Float} (below : x ≤ y) (above : y ≤ z) : x ≤ z := by
  obtain ⟨hx, hy⟩ := numbers_of_le below
  obtain ⟨-, hz⟩ := numbers_of_le above
  rw [le_iff_rank hx hy] at below
  rw [le_iff_rank hy hz] at above
  rw [le_iff_rank hx hz]
  exact Std.TransCmp.isLE_trans below above

theorem isNaN_ofModel_pack {u : UnpackedFloat} (number : u.isNaN = false) :
    (Float.ofModel (.pack u)).isNaN = false :=
  isNaN_unpack_pack Format.binary64 u number

theorem isNaN_ofNat (n : Nat) : (Float.ofNat n).isNaN = false := by
  unfold Float.ofNat
  change (Float.ofScientific n false 0).isNaN = false
  unfold Float.ofScientific
  split
  · have scaled := isNaN_unpack_pack Format.binary64 _
      (isNaN_normalize Format.binary64 (n.toUInt64.toNat : Int) 0 .positive)
    have one : Float.exactlyRepresentablePowersOfTen[0].toModel.unpack =
        .finite .positive (2 ^ 52) (-52) (by decide) := rfl
    refine isNaN_ofModel_pack ?_
    rw [one]
    exact isNaN_mul_finite Format.binary64 scaled ..
  · exact isNaN_ofModel_pack (isNaN_ofScientific Format.binary64 n)

theorem isNaN_ofInt (n : Int) : (Float.ofInt n).isNaN = false := by
  cases n with
  | ofNat n => exact isNaN_ofNat n
  | negSucc n =>
    refine isNaN_ofModel_pack ?_
    rw [isNaN_neg]
    exact isNaN_ofNat (n + 1)

theorem JsonNumber.isNaN_toFloat (n : JsonNumber) : n.toFloat.isNaN = false := by
  cases n with
  | integer n => exact isNaN_ofInt n
  | real x finite => exact isNaN_of_isFinite finite

end TradingRules
