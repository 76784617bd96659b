import TradingRules.Proofs.Numbers

/-!
# Differences of numbers

A sign takes no part in rounding nor in packing, so which of two numbers is taken from the other
shows in the sign of their difference and nowhere else. The difference is a number unless an operand
is none or both are the same infinity: what lies infinitely far out has no distance from itself.
-/

namespace TradingRules

open Float.Model (UnpackedFloat Format)

namespace Unpacked

open Float.Model.UnpackedFloat hiding normalize round

theorem abs_dite {p : Prop} [Decidable p] {x x' : p → UnpackedFloat} {y y' : ¬ p → UnpackedFloat}
    (holds : ∀ h, (x h).abs = (x' h).abs) (fails : ∀ h, (y h).abs = (y' h).abs) :
    (if h : p then x h else y h).abs = (if h : p then x' h else y' h).abs := by
  by_cases h : p
  · rw [dif_pos h, dif_pos h]
    exact holds h
  · rw [dif_neg h, dif_neg h]
    exact fails h

/-- Rounding does not look at the sign. -/
theorem abs_round (format : Format) (s s' : Sign) (mantissa : Nat) (exponent : Int) :
    (UnpackedFloat.round format s mantissa exponent).abs =
      (UnpackedFloat.round format s' mantissa exponent).abs := by
  unfold UnpackedFloat.round roundWithAccuracy
  exact abs_dite (fun _ => rfl) (fun _ => rfl)

theorem abs_normalize_neg (format : Format) (mantissa exponent : Int) (zeroSign : Sign) :
    (UnpackedFloat.normalize format (-mantissa) exponent zeroSign).abs =
      (UnpackedFloat.normalize format mantissa exponent zeroSign).abs := by
  unfold UnpackedFloat.normalize
  rcases Int.lt_trichotomy mantissa 0 with below | rfl | above
  · rw [Int.compare_eq_lt.mpr below, Int.compare_eq_gt.mpr (by omega : -mantissa > 0)]
    exact abs_round ..
  · rfl
  · rw [Int.compare_eq_gt.mpr above, Int.compare_eq_lt.mpr (by omega : -mantissa < 0), Int.neg_neg]
    exact abs_round ..

theorem abs_sub_comm (format : Format) (x y : UnpackedFloat) :
    (sub format x y).abs = (sub format y x).abs := by
  cases x with
  | notANumber => cases y <;> rfl
  | infinity s =>
    cases y with
    | notANumber => rfl
    | infinity t => cases s <;> cases t <;> rfl
    | zero t => rfl
    | finite t n k _ => rfl
  | zero s =>
    cases y with
    | notANumber => rfl
    | infinity t => rfl
    | zero t => cases s <;> cases t <;> rfl
    | finite t n k _ => rfl
  | finite s m e _ =>
    cases y with
    | notANumber => rfl
    | infinity t => rfl
    | zero t => rfl
    | finite t n k _ =>
      -- Both differences are taken at the smaller exponent, and there one is minus the other.
      unfold sub
      dsimp only
      rw [Int.min_comm k e, ← abs_normalize_neg, Int.neg_sub]

/-- What the bits of an exponent and of a mantissa stand for without a sign. -/
def magnitude (format : Format) (exponent : BitVec format.exponentBits)
    (mantissa : BitVec format.mantissaBitsWithoutImplicit) : UnpackedFloat :=
  let place : Int := exponent.toNat - (format.exponentBias + format.mantissaBitsWithoutImplicit)
  if exponent = -1#_ then
    if mantissa = 0#_ then .infinity .positive else .notANumber
  else if exponent = 0#_ then
    if h : mantissa = 0#_ then .zero .positive
    else .finite .positive mantissa.toNat (place + 1)
      (by simpa [BitVec.toNat_pos, BitVec.pos_iff_ne_zero])
  else .finite .positive (1#1 ++ mantissa).toNat place (by simp)

/-- The sign bit decides the sign of what is unpacked and nothing else. -/
theorem abs_unpack (format : Format) (bits : BitVec format.numBits) :
    (unpack format bits).abs = magnitude format (unpackExponent bits) (unpackMantissa bits) := by
  unfold unpack magnitude
  dsimp only
  by_cases top : unpackExponent bits = -1#_
  · rw [if_pos top, if_pos top]
    by_cases zero : unpackMantissa bits = 0#_
    · rw [if_pos zero, if_pos zero]
      rfl
    · rw [if_neg zero, if_neg zero]
      rfl
  · rw [if_neg top, if_neg top]
    by_cases bottom : unpackExponent bits = 0#_
    · rw [if_pos bottom, if_pos bottom]
      by_cases zero : unpackMantissa bits = 0#_
      · rw [dif_pos zero, dif_pos zero]
        rfl
      · rw [dif_neg zero, dif_neg zero]
        rfl
    · rw [if_neg bottom, if_neg bottom]
      rfl

theorem abs_unpack_packComponents (format : Format) (s s' : Sign)
    (exponent : BitVec format.exponentBits) (mantissa : BitVec format.mantissaBitsWithoutImplicit) :
    (unpack format (packComponents format s exponent mantissa)).abs =
      (unpack format (packComponents format s' exponent mantissa)).abs := by
  rw [abs_unpack, abs_unpack, unpackExponent_packComponents, unpackExponent_packComponents,
    unpackMantissa_packComponents, unpackMantissa_packComponents]

theorem abs_unpack_pack (format : Format) (x : UnpackedFloat) :
    (unpack format (pack format x)).abs = (unpack format (pack format x.abs)).abs := by
  cases x with
  | notANumber => rfl
  | infinity s => exact abs_unpack_packComponents ..
  | zero s => exact abs_unpack_packComponents ..
  | finite s m e positive =>
    change (unpack format (pack format (.finite s m e positive))).abs =
      (unpack format (pack format (.finite .positive m e positive))).abs
    unfold pack
    dsimp only
    split
    · exact abs_unpack_packComponents ..
    · split
      · exact abs_unpack_packComponents ..
      · exact abs_unpack_packComponents ..

theorem isNaN_abs (x : UnpackedFloat) : x.abs.isNaN = x.isNaN := by
  cases x <;> rfl

theorem isNaN_sub (format : Format) (x y : UnpackedFloat) :
    (sub format x y).isNaN = (x.isNaN || y.isNaN || (x.isInf && x.beq y)) := by
  cases x with
  | notANumber => rfl
  | infinity s =>
    cases y with
    | notANumber => rfl
    | infinity t => cases s <;> cases t <;> rfl
    | zero t => cases s <;> rfl
    | finite t n k _ => cases s <;> rfl
  | zero s =>
    cases y with
    | notANumber => rfl
    | infinity t => rfl
    | zero t => cases s <;> cases t <;> rfl
    | finite t n k _ => rfl
  | finite s m e _ =>
    cases y with
    | notANumber => rfl
    | infinity t => rfl
    | zero t => rfl
    | finite t n k _ => exact isNaN_normalize ..

/-- Packing makes no number of what is none, and nothing else of a number. -/
theorem isNaN_repack (x : UnpackedFloat) :
    (unpack Format.binary64 (pack Format.binary64 x)).isNaN = x.isNaN := by
  cases number : x.isNaN with
  | false => exact isNaN_unpack_pack Format.binary64 x number
  | true =>
    cases x with
    | notANumber => decide
    | infinity s => cases number
    | zero s => cases number
    | finite s m e positive => cases number

theorem unpack_sub (x y : Float) : (x - y).toModel.unpack = unpack Format.binary64
    (pack Format.binary64 (sub Format.binary64 x.toModel.unpack y.toModel.unpack)) := rfl

theorem unpack_abs (x : Float) : x.abs.toModel.unpack =
    unpack Format.binary64 (pack Format.binary64 x.toModel.unpack.abs) := rfl

end Unpacked

open Unpacked

theorem float_abs_sub_comm (x y : Float) : (x - y).abs = (y - x).abs := by
  have unpacked : (x - y).toModel.unpack.abs = (y - x).toModel.unpack.abs := by
    rw [unpack_sub, unpack_sub, abs_unpack_pack, abs_sub_comm, ← abs_unpack_pack]
  exact congrArg (fun u => Float.ofModel (.pack u)) unpacked

theorem isNaN_float_abs (x : Float) : x.abs.isNaN = x.isNaN := by
  change x.abs.toModel.unpack.isNaN = x.toModel.unpack.isNaN
  rw [unpack_abs, isNaN_repack, isNaN_abs]

/-- Two numbers without a distance: one of them is none, or both are the same infinity. -/
def Indistinct (x y : Float) : Prop :=
  x.isNaN = true ∨ y.isNaN = true ∨ (x.isInf = true ∧ (x == y) = true)

instance (x y : Float) : Decidable (Indistinct x y) :=
  inferInstanceAs (Decidable (_ ∨ _))

theorem isNaN_sub_iff {x y : Float} : (x - y).isNaN = true ↔ Indistinct x y := by
  have unpacked : (x - y).isNaN = (x.isNaN || y.isNaN || (x.isInf && (x == y))) := by
    change (x - y).toModel.unpack.isNaN = _
    rw [unpack_sub, isNaN_repack, isNaN_sub]
    rfl
  rw [unpacked, Bool.or_eq_true, Bool.or_eq_true, Bool.and_eq_true, or_assoc, Indistinct]

end TradingRules
