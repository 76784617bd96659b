import TradingRules.Decimal.Shortest
import TradingRules.Proofs.Operations

/-!
# Rounding decimals to magnitudes

The bits of a finite number are a sign and a magnitude, and the number is known by the two. The
decimals near a magnitude are rounded to it, those at the ends of the interval as well if its
mantissa is even. The shortest decimal is one of them, since the last grids that are tried are finer
than the places of the magnitude.
-/

namespace TradingRules

open Float.Model (UnpackedFloat Format)

namespace Decimal

open Unpacked Binary64

/-- What a magnitude stands for. -/
def Magnitude.extent (m : Magnitude) : Rat := m.mantissa * 2 ^ m.exponent

/-- A magnitude as bits write it. -/
structure Magnitude.Written (m : Magnitude) : Prop where
  digits : Digits m.mantissa m.exponent
  small : m.exponent ≤ 971
  gap : m.halfGapBelow = true ↔ m.mantissa = 2 ^ 52 ∧ -1074 < m.exponent

/-- A number with its sign. -/
def signed (negative : Bool) (q : Rat) : Rat := if negative then -q else q

section Bits

open Float.Model.UnpackedFloat hiding normalize round

variable (bits : BitVec Format.binary64.numBits)

theorem toNat_unpackExponent :
    (unpackExponent bits).toNat = bits.toNat / fractionCount % 2048 := by
  change ((bits.extractLsb 62 52).cast _).toNat = _
  rw [BitVec.toNat_cast, BitVec.extractLsb_toNat, Nat.shiftRight_eq_div_pow]
  rfl

theorem toNat_unpackMantissa : (unpackMantissa bits).toNat = bits.toNat % fractionCount := by
  change ((bits.extractLsb 51 0).cast _).toNat = _
  rw [BitVec.toNat_cast, BitVec.extractLsb_toNat, Nat.shiftRight_eq_div_pow]
  simp
  rfl

theorem toNat_unpackSign :
    (unpackSign bits).toNat = bits.toNat / (2048 * fractionCount) % 2 := by
  change ((bits.extractLsb 63 63).cast _).toNat = _
  rw [BitVec.toNat_cast, BitVec.extractLsb_toNat, Nat.shiftRight_eq_div_pow]
  rfl

theorem extent_ofBitVec (sign : BitVec 1) {m : Nat} (e : Int) (positive : 0 < m) :
    Unpacked.extent (.finite (.ofBitVec sign) m e positive) =
      signed (sign.toNat == 1) (m * 2 ^ e) := by
  have sign_lt : sign.toNat < 2 ^ 1 := sign.isLt
  by_cases plus : sign = 0#1
  · rw [plus]
    rfl
  · have one : sign = 1#1 := by
      apply BitVec.eq_of_toNat_eq
      have zero_ne : sign.toNat ≠ 0 := fun zero => plus (BitVec.eq_of_toNat_eq zero)
      change sign.toNat = 1
      omega
    rw [one]
    rfl

theorem written_small {fraction : Nat} (few : fraction < 2 ^ 52) :
    Magnitude.Written ⟨fraction, -1074, false⟩ where
  digits := ⟨by dsimp only; omega, le_refl _, .inl rfl⟩
  small := by dsimp only; omega
  gap := iff_of_false Bool.false_ne_true fun above => lt_irrefl _ above.2

theorem written_full {field fraction : Nat} (above : 0 < field) (below : field < 2047)
    (few : fraction < 2 ^ 52) :
    Magnitude.Written ⟨fractionCount + fraction, (field : Int) - 1075,
      decide (fraction = 0 ∧ 1 < field)⟩ where
  digits := by
    have count : fractionCount = 2 ^ 52 := rfl
    refine ⟨?_, ?_, .inr ?_⟩ <;> dsimp only <;> omega
  small := by
    dsimp only
    omega
  gap := by
    have count : fractionCount = 2 ^ 52 := rfl
    dsimp only
    rw [decide_eq_true_iff]
    omega

/-- The bits of a finite number are a sign and a magnitude. -/
theorem ofBits_of_isFinite (finite : (unpack Format.binary64 bits).isFinite = true) :
    ∃ negative m, Parts.ofBits bits.toNat = .finite negative m ∧ m.Written ∧
      Unpacked.extent (unpack Format.binary64 bits) = signed negative m.extent := by
  have field := toNat_unpackExponent bits
  have fraction := toNat_unpackMantissa bits
  have minus := toNat_unpackSign bits
  have field_lt : (unpackExponent bits).toNat < 2 ^ 11 := (unpackExponent bits).isLt
  have fraction_lt : (unpackMantissa bits).toNat < 2 ^ 52 := (unpackMantissa bits).isLt
  rw [Parts.ofBits, ← field, ← fraction, ← minus]
  unfold unpack at finite ⊢
  dsimp only at finite ⊢
  by_cases top : unpackExponent bits = -1#_
  · rw [if_pos top] at finite
    split at finite <;> cases finite
  · have below_top : (unpackExponent bits).toNat ≠ 2047 := by
      intro same
      exact top (BitVec.eq_of_toNat_eq same)
    rw [if_neg top, if_neg below_top]
    by_cases bottom : unpackExponent bits = 0#_
    · have zero : (unpackExponent bits).toNat = 0 := by
        rw [bottom]
        rfl
      rw [if_pos bottom, if_pos zero]
      refine ⟨_, _, rfl, written_small fraction_lt, ?_⟩
      by_cases none : unpackMantissa bits = 0#_
      · rw [dif_pos none, none]
        simp [Magnitude.extent, signed, Unpacked.extent]
      · rw [dif_neg none, extent_ofBitVec, bottom]
        rfl
    · have above_bottom : (unpackExponent bits).toNat ≠ 0 := by
        intro same
        exact bottom (BitVec.eq_of_toNat_eq same)
      have leading := toNat_leading (unpackMantissa bits)
      rw [if_neg bottom, if_neg above_bottom]
      refine ⟨_, _, rfl, written_full (by omega) (by omega) fraction_lt, ?_⟩
      rw [extent_ofBitVec, leading]
      rfl

end Bits
section Floats

variable {x y : Float}

theorem parts_of_isFinite (finite : x.isFinite = true) :
    ∃ negative m, parts x = .finite negative m ∧ m.Written ∧
      extent x = signed negative m.extent :=
  ofBits_of_isFinite x.toBits.toBitVec finite

theorem parts_zero : parts 0 = .finite false ⟨0, -1074, false⟩ := by decide +kernel

theorem parts_neg_zero : parts (-0) = .finite true ⟨0, -1074, false⟩ := by decide +kernel

/-- A finite number is known by its sign and by what its magnitude stands for. -/
theorem eq_of_parts (hx : x.isFinite = true) (hy : y.isFinite = true) {negative : Bool}
    {m n : Magnitude} (x_parts : parts x = .finite negative m)
    (y_parts : parts y = .finite negative n) (same : m.extent = n.extent) : x = y := by
  obtain ⟨_, _, x_parts', -, x_extent⟩ := parts_of_isFinite hx
  obtain ⟨_, _, y_parts', -, y_extent⟩ := parts_of_isFinite hy
  rw [x_parts] at x_parts'
  rw [y_parts] at y_parts'
  cases x_parts'
  cases y_parts'
  have level : extent x = extent y := by rw [x_extent, y_extent, same]
  have alike : (x == y) = true :=
    (beq_iff_extent (isNaN_false_of_isFinite hx) (isNaN_false_of_isFinite hy)).mpr level
  -- Only the two zeros stand for the same, and their signs differ.
  obtain ⟨-, -, same | ⟨rfl, rfl⟩ | ⟨rfl, rfl⟩⟩ := Float.beq_iff_ne_nan_and_eq.mp alike
  · exact same
  · rw [parts_zero] at x_parts
    rw [parts_neg_zero] at y_parts
    cases x_parts
    cases y_parts
  · rw [parts_neg_zero] at x_parts
    rw [parts_zero] at y_parts
    cases x_parts
    cases y_parts

end Floats

/-! ## Decimals that are rounded to a magnitude -/

/-- Where the decimals that are rounded to a magnitude begin. -/
def Magnitude.low (m : Magnitude) : Rat :=
  (m.mantissa - if m.halfGapBelow then 1 / 4 else 1 / 2) * 2 ^ m.exponent

/-- Where they end. -/
def Magnitude.high (m : Magnitude) : Rat := (m.mantissa + 1 / 2) * 2 ^ m.exponent

/-- Between the ends, or at one of them if the mantissa is even. -/
structure Magnitude.Near (m : Magnitude) (q : Rat) : Prop where
  low : m.low ≤ q
  high : q ≤ m.high
  inside : m.mantissa % 2 = 0 ∨ m.low < q ∧ q < m.high

section Rounding

variable {m : Magnitude} {q : Rat}

theorem roundEven_of_near {n : Int} {x : Rat} (below : n - 1 / 2 ≤ x) (above : x ≤ n + 1 / 2)
    (inside : n % 2 = 0 ∨ n - 1 / 2 < x ∧ x < n + 1 / 2) : roundEven x = n := by
  unfold roundEven
  dsimp only
  rcases le_or_gt (n : Rat) x with upper | lower
  · have floor : ⌊x⌋ = n := Int.floor_eq_iff.mpr ⟨upper, by linarith⟩
    rw [floor]
    split_ifs with near far
    · rfl
    · exfalso
      linarith
    · rcases inside with even | ⟨-, short⟩
      · rw [even, add_zero]
      · exfalso
        linarith
  · have floor : ⌊x⌋ = n - 1 := by
      rw [Int.floor_eq_iff]
      push_cast
      constructor <;> linarith
    rw [floor]
    push_cast
    split_ifs with near far
    · exfalso
      linarith
    · ring
    · rcases inside with even | ⟨short, -⟩
      · omega
      · exfalso
        linarith

theorem place_eq {e : Int} (positive : 0 < q) (least : -1074 ≤ e) (below : q < 2 ^ (e + 53))
    (above : e = -1074 ∨ 2 ^ (e + 52) ≤ q) : place q = e := by
  have log_lt : Int.log 2 q < e + 53 :=
    (Int.lt_zpow_iff_log_lt (by norm_num) positive).mp (by exact_mod_cast below)
  unfold place
  rcases above with bottom | full
  · omega
  · have le_log : e + 52 ≤ Int.log 2 q :=
      (Int.zpow_le_iff_le_log (by norm_num) positive).mp (by exact_mod_cast full)
    omega

/-- Digits before the last place are rounded to a whole number of them. -/
theorem nearest_of_digits_near {n : Int} {e : Int} {t : Rat} (least : -1074 ≤ e) (positive : 0 < t)
    (few : t < 2 ^ 53) (full : e = -1074 ∨ 2 ^ 52 ≤ t) (rounded : roundEven t = n) :
    Binary64.nearest (t * 2 ^ e) = n * 2 ^ e := by
  have unit := unit_pos e
  have placed : place (t * 2 ^ e) = e := by
    refine place_eq (mul_pos positive unit) least ?_ ?_
    · rw [add_comm, zpow_add₀ two_ne_zero, zpow_ofNat]
      exact mul_lt_mul_of_pos_right few unit
    · rw [add_comm, zpow_add₀ two_ne_zero, zpow_ofNat]
      exact full.imp_right fun digits => mul_le_mul_of_nonneg_right digits (le_of_lt unit)
  rw [Binary64.nearest, placed, mul_div_cancel_right₀ t (ne_of_gt unit), rounded]

/-- Just below a power of two the places are half as great. -/
theorem nearest_below_power {e : Int} {t : Rat} (least : -1074 < e) (low : 2 ^ 52 - 1 / 4 ≤ t)
    (few : t < 2 ^ 52) : Binary64.nearest (t * 2 ^ e) = 2 ^ 52 * 2 ^ e := by
  have finer : (2 : Rat) ^ e = 2 * 2 ^ (e - 1) := by
    rw [← zpow_one_add₀ two_ne_zero]
    congr 1
    ring
  have rounded : roundEven (t * 2) = 2 ^ 53 := by
    apply roundEven_of_near
    · push_cast
      linarith
    · push_cast
      linarith
    · exact .inl (by norm_num)
  have result : Binary64.nearest (t * 2 * 2 ^ (e - 1)) = ((2 ^ 53 : Int) : Rat) * 2 ^ (e - 1) :=
    nearest_of_digits_near (by omega) (by linarith) (by linarith) (.inr (by linarith)) rounded
  rw [finer, ← mul_assoc, ← mul_assoc, result]
  push_cast
  ring

/-- What is near a magnitude is rounded to it. -/
theorem nearest_of_near (written : m.Written) (positive : 0 < m.mantissa) (near : m.Near q) :
    Binary64.nearest q = m.extent := by
  obtain ⟨n, e, gap⟩ := m
  obtain ⟨⟨fit, least, full⟩, -, halved⟩ := written
  obtain ⟨low, high, inside⟩ := near
  have unit := unit_pos e
  dsimp only [Magnitude.low, Magnitude.high, Magnitude.extent] at *
  -- What is to be rounded, in units of the last place.
  obtain ⟨t, rfl⟩ : ∃ t, q = t * 2 ^ e := ⟨q / 2 ^ e, by field_simp⟩
  have low_t := le_of_mul_le_mul_right low unit
  have high_t := le_of_mul_le_mul_right high unit
  simp only [mul_lt_mul_iff_left₀ unit] at inside
  have one_le : (1 : Rat) ≤ n := by exact_mod_cast positive
  have fit_t : (n : Rat) + 1 ≤ 2 ^ 53 := by exact_mod_cast fit
  have half_gap : (if gap = true then 1 / 4 else 1 / 2 : Rat) ≤ 1 / 2 := by split <;> norm_num
  by_cases digits : e = -1074 ∨ 2 ^ 52 ≤ t
  · refine nearest_of_digits_near least (by linarith) (by linarith) digits ?_
    apply roundEven_of_near
    · push_cast
      linarith
    · push_cast
      linarith
    · rcases inside with even | ⟨above, below⟩
      · left
        omega
      · right
        push_cast
        constructor <;> linarith
  · rw [not_or, not_le] at digits
    obtain ⟨above, few⟩ := digits
    have power : n = 2 ^ 52 := by
      have upper : (n : Rat) < 2 ^ 52 + 1 := by linarith
      have upper_nat : n < 2 ^ 52 + 1 := by exact_mod_cast upper
      omega
    subst power
    rw [if_pos (halved.mpr ⟨rfl, by omega⟩)] at low_t
    push_cast at low_t ⊢
    exact nearest_below_power (by omega) (by linarith) few

end Rounding

/-! ## The shortest decimal is near -/

def Grid.value (g : Grid) : Rat := g.digits * 10 ^ g.exponent

section Shortest

variable {m : Magnitude} {g : Grid} {exponent : Int}

theorem pow_toNat {b : Rat} (nonzero : b ≠ 0) (k : Int) :
    b ^ k.toNat = b ^ k * b ^ (-k).toNat := by
  rw [← zpow_natCast, ← zpow_natCast, ← zpow_add₀ nonzero]
  congr 1
  omega

theorem quarter_eq (e : Int) : (2 : Rat) ^ e / 4 = 2 ^ (e - 2) := by
  rw [zpow_sub₀ Binary64.two_ne_zero]
  norm_num

/-- A quarter of the last binary place and a unit of the grid, on one scale. -/
theorem scales_eq (m : Magnitude) (exponent : Int) : ∃ scale : Rat, 0 < scale ∧
    ((m.scales exponent).1 : Rat) = 2 ^ m.exponent / 4 * scale ∧
    ((m.scales exponent).2 : Rat) = 10 ^ exponent * scale := by
  have turned : 2 - m.exponent = -(m.exponent - 2) := by ring
  refine ⟨2 ^ (2 - m.exponent).toNat * 10 ^ (-exponent).toNat, by positivity, ?_, ?_⟩
  · unfold Magnitude.scales
    push_cast [Nat.pow_eq]
    rw [quarter_eq, pow_toNat Binary64.two_ne_zero (m.exponent - 2), turned]
    ring
  · unfold Magnitude.scales
    push_cast [Nat.pow_eq]
    rw [pow_toNat (by norm_num : (10 : Rat) ≠ 0) exponent]
    ring

theorem near_of_readsBack (positive : 0 < m.mantissa) (reads : m.readsBack g = true) :
    m.Near g.value := by
  obtain ⟨scale, scale_pos, quarter, unit⟩ := scales_eq m g.exponent
  -- On the scale the ends and the decimal are whole numbers.
  have low : (((4 * m.mantissa - if m.halfGapBelow then 1 else 2) *
      (m.scales g.exponent).1 : Nat) : Rat) = m.low * scale := by
    have digits : (if m.halfGapBelow then 1 else 2) ≤ 4 * m.mantissa := by
      split <;> omega
    rw [Nat.cast_mul, Nat.cast_sub digits, quarter, Magnitude.low]
    split <;> push_cast <;> ring
  have high : (((4 * m.mantissa + 2) * (m.scales g.exponent).1 : Nat) : Rat) = m.high * scale := by
    rw [Nat.cast_mul, quarter, Magnitude.high]
    push_cast
    ring
  have decimal : ((g.digits * (m.scales g.exponent).2 : Nat) : Rat) = g.value * scale := by
    rw [Nat.cast_mul, unit, Grid.value]
    ring
  unfold Magnitude.readsBack at reads
  dsimp only at reads
  split at reads
  · rename_i even
    rw [Bool.and_eq_true, decide_eq_true_iff, decide_eq_true_iff, ← Nat.cast_le (α := Rat),
      ← Nat.cast_le (α := Rat), low, high, decimal] at reads
    exact ⟨le_of_mul_le_mul_right reads.1 scale_pos, le_of_mul_le_mul_right reads.2 scale_pos,
      .inl even⟩
  · rw [Bool.and_eq_true, decide_eq_true_iff, decide_eq_true_iff, ← Nat.cast_lt (α := Rat),
      ← Nat.cast_lt (α := Rat), low, high, decimal] at reads
    have above := lt_of_mul_lt_mul_right reads.1 (le_of_lt scale_pos)
    have below := lt_of_mul_lt_mul_right reads.2 (le_of_lt scale_pos)
    exact ⟨le_of_lt above, le_of_lt below, .inr ⟨above, below⟩⟩

theorem readsBack_of_hit? (hit : m.hit? exponent = some g) : m.readsBack g = true := by
  unfold Magnitude.hit? at hit
  dsimp only at hit
  split at hit
  · rename_i below above
    cases hit
    split <;> assumption
  · cases hit
    assumption
  · cases hit
    assumption
  · cases hit

/-- On a grid that is fine enough, the lower neighbour reads back. -/
theorem hit?_of_fine (positive : 0 < m.mantissa)
    (fine : 10 ^ exponent ≤ 2 ^ m.exponent / (4 : Rat)) : ∃ g, m.hit? exponent = some g := by
  obtain ⟨scale, scale_pos, quarter_scaled, unit_scaled⟩ := scales_eq m exponent
  have unit_pos : 0 < (m.scales exponent).2 := by
    rw [← Nat.cast_pos (α := Rat), unit_scaled]
    positivity
  have unit_le : (m.scales exponent).2 ≤ (m.scales exponent).1 := by
    rw [← Nat.cast_le (α := Rat), unit_scaled, quarter_scaled]
    exact mul_le_mul_of_nonneg_right fine (le_of_lt scale_pos)
  have below : m.readsBack (m.neighbours exponent).1 = true := by
    unfold Magnitude.readsBack Magnitude.neighbours
    dsimp only
    generalize (m.scales exponent).1 = quarter at *
    generalize (m.scales exponent).2 = unit at *
    have floor_le := Nat.div_mul_le_self (4 * m.mantissa * quarter) unit
    have lt_floor := Nat.lt_div_mul_add unit_pos (a := 4 * m.mantissa * quarter)
    have gap : 1 ≤ (if m.halfGapBelow then 1 else 2) := by split <;> decide
    have low : (4 * m.mantissa - if m.halfGapBelow then 1 else 2) * quarter + quarter ≤
        4 * m.mantissa * quarter := by
      rw [← Nat.succ_mul]
      exact Nat.mul_le_mul_right quarter (by omega)
    have high : 4 * m.mantissa * quarter + 2 * quarter = (4 * m.mantissa + 2) * quarter :=
      (Nat.add_mul _ _ _).symm
    split <;> rw [Bool.and_eq_true, decide_eq_true_iff, decide_eq_true_iff] <;> omega
  unfold Magnitude.hit?
  dsimp only
  rw [below]
  cases m.readsBack (m.neighbours exponent).2 with
  | true => exact ⟨_, rfl⟩
  | false => exact ⟨_, rfl⟩

/-- A hit on one of the grids that are tried is found, or one before it. -/
theorem readsBack_shortestFrom {steps fine : Nat} (tried : fine < steps)
    (hit : ∃ g, m.hit? (exponent - fine) = some g) :
    m.readsBack (m.shortestFrom exponent steps) = true := by
  induction steps generalizing exponent fine with
  | zero => exact absurd tried (Nat.not_lt_zero fine)
  | succ steps ih =>
    rw [Magnitude.shortestFrom]
    cases first : m.hit? exponent with
    | some g => exact readsBack_of_hit? first
    | none =>
      cases fine with
      | zero =>
        obtain ⟨g, found⟩ := hit
        rw [Nat.cast_zero, sub_zero, first] at found
        cases found
      | succ finer =>
        apply ih (Nat.lt_of_succ_lt_succ tried)
        have later : exponent - 1 - (finer : Int) = exponent - (finer + 1 : Nat) := by
          push_cast
          ring
        rw [later]
        exact hit

theorem ten_pow_le {x y : Int} {a b : Nat} (nonzero : a ≠ 0)
    (power : ((10 : Rat) ^ a) ^ x ≤ (2 ^ b) ^ x) (exponents : b * x ≤ a * y) :
    (10 : Rat) ^ x ≤ 2 ^ y := by
  apply le_of_pow_le_pow_left₀ nonzero (by positivity)
  calc ((10 : Rat) ^ x) ^ a = (10 ^ a) ^ x := by
        rw [← zpow_natCast, ← zpow_natCast, ← zpow_mul, ← zpow_mul, mul_comm]
    _ ≤ (2 ^ b) ^ x := power
    _ = 2 ^ (b * x) := by rw [← zpow_natCast, ← zpow_mul]
    _ ≤ 2 ^ (a * y) := zpow_le_zpow_right₀ (by norm_num) exponents
    _ = (2 ^ y) ^ a := by rw [← zpow_natCast, ← zpow_mul, mul_comm]

/-- The twentieth grid is fine enough. Three places of it are less than ten binary ones, and
thirteen are more than forty-three. -/
theorem fine_topExponent (written : m.Written) :
    (10 : Rat) ^ (m.topExponent - 19) ≤ 2 ^ m.exponent / 4 := by
  have least := written.digits.least
  have greatest := written.small
  have log : m.mantissa.log2 ≤ 52 := by
    rcases Nat.eq_zero_or_pos m.mantissa with zero | positive
    · rw [zero]
      decide
    · exact Nat.le_of_lt_succ ((Nat.log2_lt (Nat.ne_of_gt positive)).mpr written.digits.fit)
  have top : m.topExponent - 19 ≤ (53 + m.exponent) * 30103 / 100000 - 18 := by
    unfold Magnitude.topExponent
    omega
  rw [quarter_eq]
  rcases le_or_gt 0 (m.topExponent - 19) with large | small
  · refine ten_pow_le (a := 3) (b := 10) (by decide) ?_ (by push_cast; omega)
    exact zpow_le_zpow_left₀ large (by norm_num) (by norm_num)
  · refine ten_pow_le (a := 13) (b := 43) (by decide) ?_ (by push_cast; omega)
    have turned (b : Rat) : b ^ (m.topExponent - 19) = b⁻¹ ^ (-(m.topExponent - 19)) := by
      rw [inv_zpow', neg_neg]
    rw [turned, turned (2 ^ 43)]
    exact zpow_le_zpow_left₀ (by omega) (by norm_num) (by norm_num)

/-- The shortest decimal is rounded to the magnitude. -/
theorem nearest_shortest (written : m.Written) (positive : 0 < m.mantissa) :
    Binary64.nearest m.shortest.value = m.extent := by
  apply nearest_of_near written positive
  apply near_of_readsBack positive
  apply readsBack_shortestFrom (show 19 < 20 by decide)
  exact hit?_of_fine positive (fine_topExponent written)

end Shortest

end Decimal
end TradingRules
