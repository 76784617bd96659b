import TradingRules.Proofs.Magnitudes
import TradingRules.Text.Digits

/-!
# Shortest decimal text, read back

The shortest text of a finite number, read as a decimal and rounded, is the number. So different
numbers have different texts, the two zeros among them.
-/

namespace TradingRules.Decimal

open Text Binary64

section Digits

theorem toList_pushn (s : String) (c : Char) (n : Nat) :
    (s.pushn c n).toList = s.toList ++ List.replicate n c := by
  rw [String.pushn_eq_repeat_push]
  induction n with
  | zero => simp [Nat.repeat]
  | succ n ih =>
    rw [Nat.repeat, String.toList_push, ih, List.append_assoc, List.replicate_succ']

theorem digitsValue_eq (digits : List Char) :
    digitsValue digits = Nat.ofDigitChars 10 digits 0 := by
  rw [digitsValue, Nat.ofDigitChars_eq_foldl]

theorem digitsValue_toDigits (n : Nat) : digitsValue (Nat.toDigits 10 n) = n := by
  rw [digitsValue_eq, Nat.ofDigitChars_ten_toDigits]

theorem digitsValue_append_zeros (digits : List Char) (n : Nat) :
    digitsValue (digits ++ List.replicate n '0') = digitsValue digits * 10 ^ n := by
  rw [digitsValue_eq, digitsValue_eq, Nat.ofDigitChars_append, Nat.ofDigitChars_replicate_zero,
    Nat.mul_comm]

theorem digitsValue_zeros_append (n : Nat) (digits : List Char) :
    digitsValue (List.replicate n '0' ++ digits) = digitsValue digits := by
  rw [digitsValue_eq, digitsValue_eq, Nat.ofDigitChars_append, Nat.ofDigitChars_replicate_zero,
    Nat.mul_zero]

end Digits

/-- What digits with or without a point stand for. -/
def pointValue (cs : List Char) : Rat :=
  let whole := cs.takeWhile (· ≠ '.')
  let places := (cs.dropWhile (· ≠ '.')).drop 1
  digitsValue (whole ++ places) / 10 ^ places.length

def OnlyDigits (cs : List Char) : Prop := ∀ c ∈ cs, c.isDigit = true

theorem takeWhile_digits {whole : List Char} (digits : OnlyDigits whole) (rest : List Char) :
    (whole ++ rest).takeWhile (· ≠ '.') = whole ++ rest.takeWhile (· ≠ '.') := by
  apply List.takeWhile_append_of_pos
  intro c member
  have digit := digits c member
  rw [decide_eq_true_iff]
  rintro rfl
  cases digit

theorem dropWhile_digits {whole : List Char} (digits : OnlyDigits whole) (rest : List Char) :
    (whole ++ rest).dropWhile (· ≠ '.') = rest.dropWhile (· ≠ '.') := by
  apply List.dropWhile_append_of_pos
  intro c member
  have digit := digits c member
  rw [decide_eq_true_iff]
  rintro rfl
  cases digit

theorem pointValue_whole {whole : List Char} (digits : OnlyDigits whole) :
    pointValue whole = digitsValue whole := by
  have before := takeWhile_digits digits []
  have after := dropWhile_digits digits []
  rw [List.append_nil] at before after
  rw [pointValue, before, after]
  simp

theorem pointValue_point {whole places : List Char} (digits : OnlyDigits whole) :
    pointValue (whole ++ '.' :: places) = digitsValue (whole ++ places) / 10 ^ places.length := by
  rw [pointValue, takeWhile_digits digits, dropWhile_digits digits]
  simp

/-- A decimal without or with a point, and what it stands for. -/
inductive Denotes : List Char → Rat → Prop
  | whole {digits : List Char} (all : OnlyDigits digits) (some_digit : digits ≠ []) :
      Denotes digits (digitsValue digits)
  | point {digits places : List Char} (all : OnlyDigits digits) (others : OnlyDigits places) :
      Denotes (digits ++ '.' :: places) (digitsValue (digits ++ places) / 10 ^ places.length)

theorem Denotes.value_eq {cs : List Char} {q : Rat} (denotes : Denotes cs q) :
    pointValue cs = q := by
  cases denotes with
  | whole all => exact pointValue_whole all
  | point all others => exact pointValue_point all

theorem digits_toDigits (n : Nat) : OnlyDigits (Nat.toDigits 10 n) :=
  fun _ member => Nat.isDigit_of_mem_toDigits (by decide) (by decide) member

theorem digits_zeros (n : Nat) : OnlyDigits (List.replicate n '0') := by
  intro c member
  rw [List.eq_of_mem_replicate member]
  rfl

theorem OnlyDigits.append {cs ds : List Char} (first : OnlyDigits cs) (second : OnlyDigits ds) :
    OnlyDigits (cs ++ ds) := by
  intro c member
  rcases List.mem_append.mp member with before | after
  · exact first c before
  · exact second c after

/-- The text of a decimal denotes it. -/
theorem denotes_text (g : Grid) : Denotes g.text.toList g.value := by
  obtain ⟨n, exponent⟩ := g
  have characters : (toString n).toList = Nat.toDigits 10 n := Nat.toList_repr
  have length : (toString n).length = (Nat.toDigits 10 n).length := by
    rw [← String.length_toList, characters]
  have digits := digits_toDigits n
  have value := digitsValue_toDigits n
  have filled : Nat.toDigits 10 n ≠ [] := Nat.toDigits_ne_nil
  unfold Grid.text Grid.value
  dsimp only
  rw [length, characters]
  generalize Nat.toDigits 10 n = ds at *
  split
  · rename_i whole
    rw [toList_pushn, characters]
    have denoted := Denotes.whole (digits.append (digits_zeros exponent.toNat))
      (List.append_ne_nil_of_left_ne_nil filled _)
    rw [digitsValue_append_zeros, value] at denoted
    push_cast at denoted
    rwa [← zpow_natCast, Int.toNat_of_nonneg whole] at denoted
  · rename_i part
    have places : (10 : Rat) ^ exponent = 1 / 10 ^ (-exponent).toNat := by
      rw [← zpow_natCast, Int.toNat_of_nonneg (by omega), zpow_neg, one_div, inv_inv]
    rw [places, mul_one_div]
    split
    · rename_i few
      have zeros := digits_zeros ((-exponent).toNat - ds.length)
      have denoted := Denotes.point (digits_zeros 1) (zeros.append digits)
      have length_eq : (List.replicate ((-exponent).toNat - ds.length) '0' ++ ds).length =
          (-exponent).toNat := by
        rw [List.length_append, List.length_replicate]
        omega
      rw [digitsValue_zeros_append, digitsValue_zeros_append, value, length_eq] at denoted
      simpa [toList_pushn] using denoted
    · rename_i many
      have before : OnlyDigits (ds.take (ds.length - (-exponent).toNat)) :=
        fun c member => digits c (List.mem_of_mem_take member)
      have after : OnlyDigits (ds.drop (ds.length - (-exponent).toNat)) :=
        fun c member => digits c (List.mem_of_mem_drop member)
      have denoted := Denotes.point before after
      have length_eq : (ds.drop (ds.length - (-exponent).toNat)).length = (-exponent).toNat := by
        rw [List.length_drop]
        omega
      rw [List.take_append_drop, value, length_eq] at denoted
      simpa using denoted

/-! ## Numbers and their texts -/

/-- The text of a magnitude. -/
def Magnitude.text (m : Magnitude) : String := if m.mantissa = 0 then "0" else m.shortest.text

/-- What that text stands for. -/
def Magnitude.decimal (m : Magnitude) : Rat := if m.mantissa = 0 then 0 else m.shortest.value

theorem denotes_magnitude (m : Magnitude) : Denotes m.text.toList m.decimal := by
  unfold Magnitude.text Magnitude.decimal
  split
  · have zero : ((digitsValue ['0'] : Nat) : Rat) = 0 := Nat.cast_zero
    rw [← zero]
    exact .whole (digits_zeros 1) (by decide)
  · exact denotes_text m.shortest

/-- The text of a magnitude, read as a decimal and rounded, is what it stands for. -/
theorem nearest_decimal {m : Magnitude} (written : m.Written) :
    Binary64.nearest m.decimal = m.extent := by
  unfold Magnitude.decimal
  split
  · rename_i zero
    rw [Magnitude.extent, zero, Nat.cast_zero, zero_mul]
    exact nearest_zero
  · rename_i nonzero
    exact nearest_shortest written (Nat.pos_of_ne_zero nonzero)

/-- A sign, where there is one, and digits with or without a point. -/
theorem shortestText_eq {x : Float} {negative : Bool} {m : Magnitude}
    (known : parts x = .finite negative m) :
    (shortestText x).toList = (if negative then ['-'] else []) ++ m.text.toList := by
  unfold shortestText
  rw [known]
  dsimp only
  rw [String.toList_append]
  cases negative <;> rfl

/-- The characters of numbers. -/
def NumberCharacter (c : Char) : Prop := c.isDigit = true ∨ c = '.' ∨ c = '-'

theorem Denotes.characters {cs : List Char} {q : Rat} (denotes : Denotes cs q) :
    cs ≠ [] ∧ ∀ c ∈ cs, c.isDigit = true ∨ c = '.' := by
  cases denotes with
  | whole all some_digit => exact ⟨some_digit, fun c member => .inl (all c member)⟩
  | point all others =>
    refine ⟨List.append_ne_nil_of_right_ne_nil _ (List.cons_ne_nil _ _), ?_⟩
    intro c member
    rcases List.mem_append.mp member with before | after
    · exact .inl (all c before)
    · rcases List.mem_cons.mp after with rfl | behind
      · exact .inr rfl
      · exact .inl (others c behind)

section Numbers

variable {x y : Float}

theorem shortestText_characters (finite : x.isFinite = true) :
    ∀ c ∈ (shortestText x).toList, NumberCharacter c := by
  obtain ⟨negative, m, known, -⟩ := parts_of_isFinite finite
  have characters := (denotes_magnitude m).characters.2
  rw [shortestText_eq known]
  intro c member
  rcases List.mem_append.mp member with sign | digit
  · cases negative with
    | false => cases sign
    | true => exact .inr (.inr (List.mem_singleton.mp sign))
  · exact (characters c digit).imp_right .inl

/-- A number without a sign does not begin with one. -/
theorem minus_append_ne {cs ds : List Char} {q : Rat} (denotes : Denotes ds q) :
    '-' :: cs ≠ ds := by
  rintro rfl
  rcases denotes.characters.2 '-' List.mem_cons_self with digit | point
  · exact absurd digit (by decide)
  · exact absurd point (by decide)

/-- Different finite numbers have different texts. -/
theorem shortestText_injective (hx : x.isFinite = true) (hy : y.isFinite = true)
    (same : shortestText x = shortestText y) : x = y := by
  obtain ⟨minus, m, x_parts, x_written, -⟩ := parts_of_isFinite hx
  obtain ⟨minus', n, y_parts, y_written, -⟩ := parts_of_isFinite hy
  have x_denotes := denotes_magnitude m
  have y_denotes := denotes_magnitude n
  have texts := congrArg String.toList same
  rw [shortestText_eq x_parts, shortestText_eq y_parts] at texts
  have level (digits : m.text.toList = n.text.toList) : m.extent = n.extent := by
    rw [← nearest_decimal x_written, ← nearest_decimal y_written, ← x_denotes.value_eq,
      ← y_denotes.value_eq, digits]
  cases minus with
  | false =>
    cases minus' with
    | false => exact eq_of_parts hx hy x_parts y_parts (level texts)
    | true => exact absurd texts.symm (minus_append_ne x_denotes)
  | true =>
    cases minus' with
    | false => exact absurd texts (minus_append_ne y_denotes)
    | true => exact eq_of_parts hx hy x_parts y_parts (level (List.cons.inj texts).2)

end Numbers

end TradingRules.Decimal
