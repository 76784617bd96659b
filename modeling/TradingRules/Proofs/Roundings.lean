import TradingRules.Proofs.Extents

/-!
# Operations that round

An operation on numbers gives what its exact result is rounded to, or an infinity where that is too
great. The machine keeps the digits of a result that there is room for, the next digit, and whether
anything follows it; these three tell which way to round, and they survive every shift. Division
finds them from a remainder.

Only results that are not negative are looked at.
-/

namespace TradingRules

open Float.Model (UnpackedFloat Format)

namespace Unpacked

open Float.Model (totalExponent)
open Float.Model.UnpackedFloat hiding normalize round
open Binary64

section Shifts

/-- The digits kept, the next one and whether there are more tell `x`, counted in halves. -/
structure Shows (em : ExtendedMantissa) (x : Rat) : Prop where
  halves : ⌊2 * x⌋ = 2 * (em.mantissa : Int) + em.roundBit.toNat
  rest : em.stickyBit = true ↔ (⌊2 * x⌋ : Rat) ≠ 2 * x

theorem Shows.floor {em : ExtendedMantissa} {x : Rat} (shows_x : Shows em x) :
    ⌊x⌋ = em.mantissa := by
  have low := Int.floor_le (2 * x)
  have high := Int.lt_floor_add_one (2 * x)
  have bit : (em.roundBit.toNat : Rat) ≤ 1 := by exact_mod_cast Bool.toNat_le em.roundBit
  have bit_nonneg : (0 : Rat) ≤ em.roundBit.toNat := Nat.cast_nonneg _
  rw [shows_x.halves] at low high
  push_cast at low high
  rw [Int.floor_eq_iff, Int.cast_natCast]
  constructor <;> linarith

theorem shows_exact (m : Nat) : Shows (.ofMantissaAndAccuracy m .exact) m := by
  have twice : ⌊2 * (m : Rat)⌋ = 2 * (m : Int) := by exact_mod_cast Int.floor_natCast (2 * m)
  refine ⟨twice, iff_of_false Bool.false_ne_true (not_not.mpr ?_)⟩
  rw [twice]
  push_cast
  rfl

/-- A remainder tells what follows a whole quotient. -/
theorem shows_fraction (m : Nat) {part whole : Nat} (proper : part < whole) :
    Shows (.ofMantissaAndAccuracy m (accuracyOfFraction part whole)) (m + part / whole) := by
  have whole_pos : (0 : Rat) < whole := by exact_mod_cast Nat.zero_lt_of_lt proper
  have less_than_one : (part : Rat) / whole < 1 :=
    (div_lt_one whole_pos).mpr (by exact_mod_cast proper)
  rcases Nat.eq_zero_or_pos part with rfl | positive
  · rw [Nat.cast_zero, zero_div, add_zero]
    exact shows_exact m
  · have fraction_pos : (0 : Rat) < part / whole :=
      div_pos (by exact_mod_cast positive) whole_pos
    have scaled : 2 * ((part : Rat) / whole) = (2 * part : Nat) / whole := by
      push_cast
      ring
    rw [accuracyOfFraction, if_neg (Nat.ne_of_gt positive)]
    cases side : compare (2 * part) whole with
    | lt =>
      have below : 2 * ((part : Rat) / whole) < 1 := by
        rw [scaled, div_lt_one whole_pos]
        exact_mod_cast Nat.compare_eq_lt.mp side
      have floor : ⌊2 * ((m : Rat) + part / whole)⌋ = 2 * (m : Int) := by
        rw [Int.floor_eq_iff]
        push_cast
        constructor <;> linarith
      refine ⟨floor, iff_of_true rfl ?_⟩
      rw [floor]
      push_cast
      exact ne_of_lt (by linarith)
    | eq =>
      have half : 2 * ((part : Rat) / whole) = 1 := by
        rw [scaled, div_eq_one_iff_eq (ne_of_gt whole_pos)]
        exact_mod_cast Nat.compare_eq_eq.mp side
      have floor : ⌊2 * ((m : Rat) + part / whole)⌋ = 2 * (m : Int) + 1 := by
        rw [Int.floor_eq_iff]
        push_cast
        constructor <;> linarith
      refine ⟨floor, iff_of_false Bool.false_ne_true (not_not.mpr ?_)⟩
      rw [floor]
      push_cast
      linarith
    | gt =>
      have above : 1 < 2 * ((part : Rat) / whole) := by
        rw [scaled, one_lt_div whole_pos]
        exact_mod_cast Nat.compare_eq_gt.mp side
      have floor : ⌊2 * ((m : Rat) + part / whole)⌋ = 2 * (m : Int) + 1 := by
        rw [Int.floor_eq_iff]
        push_cast
        constructor <;> linarith
      refine ⟨floor, iff_of_true rfl ?_⟩
      rw [floor]
      push_cast
      exact ne_of_lt (by linarith)

theorem Shows.whole_iff {em : ExtendedMantissa} {x : Rat} (shows_x : Shows em x) :
    (em.mantissa : Rat) = x ↔ em.roundBit = false ∧ em.stickyBit = false := by
  have low := Int.floor_le (2 * x)
  have rest := shows_x.rest
  rw [shows_x.halves] at low rest
  cases bit : em.roundBit with
  | false =>
    rw [bit] at rest
    push_cast at rest
    rw [← Bool.not_eq_true em.stickyBit, rest, Bool.toNat_false, Nat.cast_zero, add_zero, not_not]
    constructor
    · exact fun same => ⟨rfl, by rw [same]⟩
    · exact fun twice => by linarith [twice.2]
  | true =>
    rw [bit] at low
    push_cast at low
    refine iff_of_false (fun same => ?_) (fun both => Bool.noConfusion both.1)
    rw [same, Bool.toNat_true, Nat.cast_one] at low
    linarith

theorem Shows.shiftRightOne {em : ExtendedMantissa} {x : Rat} (shows_x : Shows em x) :
    Shows em.shiftRightOne (x / 2) := by
  have twice : 2 * (x / 2) = x := by ring
  refine ⟨?_, ?_⟩
  · rw [twice, shows_x.floor]
    unfold ExtendedMantissa.shiftRightOne
    rcases Nat.mod_two_eq_zero_or_one em.mantissa with even | odd
    · simp [even]
      omega
    · simp [odd]
      omega
  · rw [twice, shows_x.floor, Int.cast_natCast, Ne, shows_x.whole_iff]
    unfold ExtendedMantissa.shiftRightOne
    cases em.roundBit <;> cases em.stickyBit <;> simp

theorem Shows.shiftRight {em : ExtendedMantissa} {x : Rat} (shows_x : Shows em x) (n : Nat) :
    Shows (em >>> n) (x / 2 ^ n) := by
  change Shows (n.repeat ExtendedMantissa.shiftRightOne em) (x / 2 ^ n)
  induction n with
  | zero =>
    rw [pow_zero, div_one]
    exact shows_x
  | succ n ih =>
    rw [pow_succ, ← div_div]
    exact ih.shiftRightOne

/-- Those three tell the nearest integer, and of two the even one. -/
theorem Shows.roundedMantissa {em : ExtendedMantissa} {x : Rat} (shows_x : Shows em x) :
    (em.roundedMantissa : Int) = roundEven x := by
  have low := Int.floor_le (2 * x)
  have high := Int.lt_floor_add_one (2 * x)
  have rest := shows_x.rest
  rw [shows_x.halves] at low high rest
  unfold roundEven
  rw [shows_x.floor]
  obtain ⟨m, bit, sticky⟩ := em
  dsimp only at low high rest ⊢
  push_cast at low high rest ⊢
  cases bit with
  | false =>
    rw [Bool.toNat_false, Nat.cast_zero] at high
    rw [if_pos (by linarith)]
    cases sticky <;> rfl
  | true =>
    rw [Bool.toNat_true, Nat.cast_one] at low rest
    rw [if_neg (by linarith)]
    cases sticky with
    | false =>
      have half : 2 * (m : Rat) + 1 = 2 * x := not_not.mp (mt rest.mpr Bool.false_ne_true)
      rw [if_neg (by linarith)]
      rfl
    | true =>
      have more : 2 * (m : Rat) + 1 < 2 * x := lt_of_le_of_ne low (rest.mp rfl)
      rw [if_pos (by linarith)]
      rfl

end Shifts

section Places

theorem targetExponent_eq (m : Nat) (e : Int) :
    Format.binary64.targetExponent (totalExponent m e) = max ((m.log2 : Int) + e - 52) (-1074) := by
  have least : Format.binary64.minExponent = -1074 := by decide
  have bits : (Format.binary64.mantissaBits : Int) = 53 := by decide
  unfold Format.targetExponent totalExponent
  omega

/-- A whole number of units tells the size of what it is the floor of. -/
theorem log_of_floor {m : Nat} {e : Int} {q : Rat} (positive : 0 < m)
    (floor : ⌊q / 2 ^ e⌋ = (m : Int)) : Int.log 2 q = m.log2 + e := by
  obtain ⟨low, high⟩ := Int.floor_eq_iff.mp floor
  rw [Int.cast_natCast, le_div_iff₀ (unit_pos e)] at low
  rw [Int.cast_natCast, div_lt_iff₀ (unit_pos e)] at high
  have q_pos : 0 < q := lt_of_lt_of_le (digits_pos positive e) low
  have digits_low : 2 ^ m.log2 ≤ m := Nat.log2_self_le (Nat.ne_of_gt positive)
  have digits_high : m + 1 ≤ 2 ^ (m.log2 + 1) := Nat.lt_log2_self
  have least : ((2 : Nat) : Rat) ^ ((m.log2 : Int) + e) ≤ q := by
    rw [Nat.cast_ofNat, zpow_add₀ two_ne_zero, zpow_natCast]
    refine le_trans (mul_le_mul_of_nonneg_right ?_ (le_of_lt (unit_pos e))) low
    exact_mod_cast digits_low
  have next : q < ((2 : Nat) : Rat) ^ ((m.log2 : Int) + 1 + e) := by
    have power : (2 : Rat) ^ ((m.log2 : Int) + 1) = ((2 ^ (m.log2 + 1) : Nat) : Rat) := by
      push_cast
      exact zpow_natCast 2 (m.log2 + 1)
    rw [Nat.cast_ofNat, zpow_add₀ two_ne_zero, power]
    refine lt_of_lt_of_le high (mul_le_mul_of_nonneg_right ?_ (le_of_lt (unit_pos e)))
    exact_mod_cast digits_high
  have lower := (Int.zpow_le_iff_le_log (by norm_num) q_pos).mp least
  have upper := (Int.lt_zpow_iff_log_lt (by norm_num) q_pos).mp next
  omega

theorem targetExponent_eq_place_of_pos {m : Nat} {e : Int} {q : Rat} (positive : 0 < m)
    (floor : ⌊q / 2 ^ e⌋ = (m : Int)) :
    Format.binary64.targetExponent (totalExponent m e) = place q := by
  rw [targetExponent_eq, place, log_of_floor positive floor]

/-- The exponent the machine aims at is the last place of the exact result. -/
theorem targetExponent_eq_place {m : Nat} {e : Int} {q : Rat} (q_pos : 0 < q)
    (floor : ⌊q / 2 ^ e⌋ = (m : Int)) (fine : e ≤ place q) :
    Format.binary64.targetExponent (totalExponent m e) = place q := by
  rcases Nat.eq_zero_or_pos m with rfl | positive
  · -- Less than one unit is left of a result whose last place is the least one.
    have below : q < ((2 : Nat) : Rat) ^ e := by
      have high := (Int.floor_eq_iff.mp floor).2
      rw [Int.cast_natCast, Nat.cast_zero, zero_add, div_lt_one (unit_pos e)] at high
      rw [Nat.cast_ofNat]
      exact high
    have log := (Int.lt_zpow_iff_log_lt (by norm_num) q_pos).mp below
    have no_digits : (Nat.log2 0 : Int) = 0 := rfl
    rw [targetExponent_eq]
    unfold place at fine ⊢
    omega
  · exact targetExponent_eq_place_of_pos positive floor

end Places

section Results

/-- The unpacked number that writes `q`, however great it is. -/
inductive Writes : Rat → UnpackedFloat → Prop
  | zero (s : Sign) : Writes 0 (.zero s)
  | digits {m : Nat} {e : Int} (positive : 0 < m) (digits : Digits m e) :
      Writes (m * 2 ^ e) (.finite .positive m e positive)

theorem shiftToTargetExponent_eq {m : Nat} {e target : Int} (accuracy : Accuracy)
    (aim : Format.binary64.targetExponent (totalExponent m e) = target) :
    shiftToTargetExponent Format.binary64 m e accuracy =
      (ExtendedMantissa.ofMantissaAndAccuracy m accuracy >>> (target - e).toNat,
        e + (target - e).toNat) := by
  subst aim
  rfl

/-- A rounded mantissa is left where it is, unless it has one digit too many, and that is zero. -/
theorem writes_rounded {n : Nat} {e : Int} (bounded : n ≤ 2 ^ 53) (least : -1074 ≤ e)
    (full : e = -1074 ∨ 2 ^ 52 ≤ n) :
    let last := shiftToTargetExponent Format.binary64 n e .exact
    Writes (n * 2 ^ e) (if h : last.1.mantissa = 0 then .zero .positive
      else .finite .positive last.1.mantissa last.2 (Nat.pos_of_ne_zero h)) := by
  rcases Nat.lt_or_eq_of_le bounded with fit | rfl
  · have short : n.log2 ≤ 52 := by
      rcases Nat.eq_zero_or_pos n with rfl | positive
      · decide
      · exact Nat.le_of_lt_succ ((Nat.log2_lt (Nat.ne_of_gt positive)).mpr fit)
    have none : (max ((n.log2 : Int) + e - 52) (-1074) - e).toNat = 0 := by omega
    have kept : shiftToTargetExponent Format.binary64 n e .exact = (⟨n, false, false⟩, e) := by
      rw [shiftToTargetExponent_eq .exact (targetExponent_eq n e), none]
      exact Prod.ext rfl (add_zero e)
    simp only [kept]
    rcases Nat.eq_zero_or_pos n with rfl | positive
    · rw [Nat.cast_zero, zero_mul]
      exact .zero .positive
    · rw [dif_neg (Nat.ne_of_gt positive)]
      exact .digits positive ⟨fit, least, full⟩
  · have one : (max (((2 ^ 53 : Nat).log2 : Int) + e - 52) (-1074) - e).toNat = 1 := by
      rw [Nat.log2_two_pow]
      omega
    have moved : ((2 ^ 53 : Nat) : Rat) * 2 ^ e = ((2 ^ 52 : Nat) : Rat) * 2 ^ (e + 1) := by
      rw [zpow_add₀ two_ne_zero]
      push_cast
      ring
    rw [shiftToTargetExponent_eq .exact (targetExponent_eq (2 ^ 53) e), one, moved]
    exact .digits (by norm_num) ⟨by norm_num, by omega, .inr (le_refl _)⟩

/-- The machine rounds to the nearest, from digits that are fine enough. -/
theorem roundWithAccuracy_writes {m : Nat} {e : Int} {accuracy : Accuracy} {q : Rat}
    (q_pos : 0 < q) (shown : Shows (.ofMantissaAndAccuracy m accuracy) (q / 2 ^ e))
    (fine : e ≤ place q) :
    Writes (nearest q) (roundWithAccuracy Format.binary64 .positive m e accuracy) := by
  have floor : ⌊q / 2 ^ e⌋ = (m : Int) := by
    rw [shown.floor]
    cases accuracy with
    | exact => rfl
    | inexact side => cases side <;> rfl
  have shift : e + ((place q - e).toNat : Int) = place q := by omega
  have first := shiftToTargetExponent_eq accuracy (targetExponent_eq_place q_pos floor fine)
  rw [shift] at first
  have rounded : ((ExtendedMantissa.ofMantissaAndAccuracy m accuracy >>>
      (place q - e).toNat).roundedMantissa : Int) = roundEven (q / 2 ^ place q) := by
    rw [(shown.shiftRight (place q - e).toNat).roundedMantissa, div_div, ← zpow_natCast,
      ← zpow_add₀ two_ne_zero, shift]
  have bounded := roundEven_digits_le q
  have full := le_roundEven_digits q_pos
  rw [← rounded] at bounded full
  have least : -1074 ≤ place q := le_max_right _ _
  unfold roundWithAccuracy
  simp only [first]
  rw [nearest, ← rounded, Int.cast_natCast]
  refine writes_rounded (by exact_mod_cast bounded) least ?_
  rcases eq_or_lt_of_le least with same | above
  · exact .inl same.symm
  · exact .inr (by exact_mod_cast full above)

theorem floor_digits (m : Nat) (e : Int) : ⌊(m : Rat) * 2 ^ e / 2 ^ e⌋ = (m : Int) := by
  rw [mul_div_cancel_right₀ _ (ne_of_gt (unit_pos e)), Int.floor_natCast]

/-- More digits at a finer place stand for the same. -/
theorem digits_shiftLeft (m k : Nat) (e : Int) :
    ((m <<< k : Nat) : Rat) * 2 ^ (e - k) = m * 2 ^ e := by
  rw [Nat.shiftLeft_eq, Nat.cast_mul, Nat.cast_pow, Nat.cast_ofNat, ← zpow_natCast, mul_assoc,
    ← zpow_add₀ two_ne_zero]
  congr 2
  omega

/-- Digits that are not fine enough are written finer first. -/
theorem round_writes {m : Nat} (positive : 0 < m) (e : Int) :
    Writes (nearest (m * 2 ^ e)) (UnpackedFloat.round Format.binary64 .positive m e) := by
  have target := targetExponent_eq_place_of_pos positive (floor_digits m e)
  have finer := digits_shiftLeft m (e - place (m * 2 ^ e)).toNat e
  unfold UnpackedFloat.round decreaseExponent
  rw [target]
  refine roundWithAccuracy_writes (digits_pos positive e) ?_ (by omega)
  rw [(div_eq_iff (ne_of_gt (unit_pos _))).mpr finer.symm]
  exact shows_exact _

theorem normalize_writes {n : Int} (nonneg : 0 ≤ n) (e : Int) :
    Writes (nearest (n * 2 ^ e)) (UnpackedFloat.normalize Format.binary64 n e .positive) := by
  unfold UnpackedFloat.normalize
  rcases Int.lt_or_eq_of_le nonneg with positive | rfl
  · obtain ⟨m, rfl⟩ := Int.eq_ofNat_of_zero_le nonneg
    rw [Int.compare_eq_gt.mpr positive]
    rw [Int.cast_natCast]
    exact round_writes (Int.natCast_pos.mp positive) e
  · rw [Int.cast_zero, zero_mul, nearest_zero]
    exact .zero .positive

/-- What has no more digits than there is room for is not rounded. -/
theorem Writes.nearest_eq {q : Rat} {x : UnpackedFloat} (writes : Writes q x) : nearest q = q := by
  cases writes with
  | zero s => exact nearest_zero
  | digits positive digits => exact nearest_of_digits digits.fit digits.least

theorem Writes.repacked {q : Rat} {x : UnpackedFloat} (writes : Writes q x) :
    (unpack Format.binary64 (pack Format.binary64 x)).isNaN = false ∧
      extent (unpack Format.binary64 (pack Format.binary64 x)) = min q beyond := by
  cases writes with
  | zero s =>
    rw [repack_zero, min_eq_left (le_of_lt beyond_pos)]
    exact ⟨rfl, rfl⟩
  | @digits m e positive digits =>
    rcases le_or_gt e 971 with small | large
    · rw [repack_finite .positive positive digits small,
        min_eq_left (le_of_lt (digits_lt_beyond digits small))]
      exact ⟨rfl, rfl⟩
    · have full : 2 ^ 52 ≤ m := by
        have := digits.full
        omega
      have great : beyond ≤ m * 2 ^ e := by
        calc beyond = 2 ^ (52 : Int) * 2 ^ (972 : Int) := by
              rw [← zpow_add₀ two_ne_zero]
              rfl
          _ ≤ m * 2 ^ e := by
              refine mul_le_mul ?_ (zpow_le_zpow_right₀ (by norm_num) (by omega))
                (le_of_lt (unit_pos _)) (Nat.cast_nonneg m)
              exact_mod_cast full
      rw [repack_large .positive positive large, min_eq_right great]
      exact ⟨rfl, rfl⟩

end Results

end Unpacked

end TradingRules
