import TradingRules.Proofs.Results
import TradingRules.Settings

/-!
# The depth that settings ask for

The value of a setting is text; a depth is what an integer of 64 bits in that text says. Text that
spells such an integer is read as it, whatever its sign and its leading zeros, and as a depth it is
taken or refused. Text that spells a larger integer is read as none. A value that is no integer
counts as not set, so the depth is then the one that is used without a setting.
-/

namespace TradingRules

namespace Decimal

open Text

/-- Text that spells an integer: a sign or none, then at least one digit. -/
inductive Spells : String → Int → Prop
  | unsigned {digits : List Char} (filled : digits ≠ [])
      (decimal : ∀ c ∈ digits, c.isDigit = true) :
      Spells (String.ofList digits) (digitsValue digits)
  | plus {digits : List Char} (filled : digits ≠ []) (decimal : ∀ c ∈ digits, c.isDigit = true) :
      Spells (String.ofList ('+' :: digits)) (digitsValue digits)
  | minus {digits : List Char} (filled : digits ≠ []) (decimal : ∀ c ∈ digits, c.isDigit = true) :
      Spells (String.ofList ('-' :: digits)) (-(digitsValue digits : Int))

/-- The integers of 64 bits, a sign among them. -/
def Word (n : Int) : Prop := -(integerLimit : Int) ≤ n ∧ n < integerLimit

instance (n : Int) : Decidable (Word n) := inferInstanceAs (Decidable (_ ∧ _))

section Digits

/-- The value of some digits that come after those with a given value. -/
def valueAfter (n : Nat) (digits : List Char) : Nat :=
  digits.foldl (fun n c => 10 * n + (c.toNat - '0'.toNat)) n

theorem le_valueAfter (n : Nat) (digits : List Char) : n ≤ valueAfter n digits := by
  induction digits generalizing n with
  | nil => exact Nat.le_refl n
  | cons c rest ih =>
    have later := ih (10 * n + (c.toNat - '0'.toNat))
    change n ≤ valueAfter (10 * n + (c.toNat - '0'.toNat)) rest
    omega

variable {limit : Nat} {overflow : NumberFault} {digits : List Char}

/-- A value that has left the range does not come back, so the value of all digits decides. -/
theorem boundedDigits_eq (decimal : ∀ c ∈ digits, c.isDigit = true) {n : Nat}
    (inside : n ≤ limit) :
    boundedDigits limit overflow n digits =
      if valueAfter n digits ≤ limit then .ok (valueAfter n digits) else .error overflow := by
  induction digits generalizing n with
  | nil =>
    have kept : valueAfter n [] ≤ limit := inside
    rw [if_pos kept]
    rfl
  | cons c rest ih =>
    obtain ⟨first, others⟩ := List.forall_mem_cons.mp decimal
    have value : valueAfter n (c :: rest) = valueAfter (10 * n + (c.toNat - '0'.toNat)) rest := rfl
    have later := le_valueAfter (10 * n + (c.toNat - '0'.toNat)) rest
    simp only [boundedDigits, if_pos first]
    by_cases left : limit < 10 * n + (c.toNat - '0'.toNat)
    · rw [if_pos left, if_neg (by omega)]
    · rw [if_neg left, value]
      exact ih others (by omega)

/-- Digits are no sign. -/
theorem takeSign_digits (decimal : ∀ c ∈ digits, c.isDigit = true) :
    takeSign digits = (false, digits) := by
  unfold takeSign
  split
  · exact absurd (decimal '-' List.mem_cons_self) (by decide)
  · exact absurd (decimal '+' List.mem_cons_self) (by decide)
  · rfl

end Digits

section Integers

variable {s : String} {n : Int} {digits : List Char}

theorem le_largest_iff (m : Nat) : m ≤ integerLimit - 1 ↔ Word m := by
  have positive : 0 < integerLimit := by decide
  constructor
  · intro fits
    exact ⟨by omega, by omega⟩
  · rintro ⟨-, below⟩
    omega

theorem le_smallest_iff (m : Nat) : m ≤ integerLimit ↔ Word (-(m : Int)) := by
  have positive : 0 < integerLimit := by decide
  constructor
  · intro fits
    exact ⟨by omega, by omega⟩
  · rintro ⟨above, -⟩
    omega

/-- Digits are read as what their value stands for with a sign, if 64 bits hold it. -/
theorem signedDigits_eq {limit : Nat} {overflow : NumberFault} {signed : Nat → Int}
    (range : ∀ m, m ≤ limit ↔ Word (signed m)) (decimal : ∀ c ∈ digits, c.isDigit = true) :
    (boundedDigits limit overflow 0 digits).map signed =
      if Word (signed (digitsValue digits)) then .ok (signed (digitsValue digits))
      else .error overflow := by
  have read : boundedDigits limit overflow 0 digits =
      if digitsValue digits ≤ limit then .ok (digitsValue digits) else .error overflow :=
    boundedDigits_eq decimal (Nat.zero_le limit)
  rw [read]
  by_cases fits : digitsValue digits ≤ limit
  · rw [if_pos fits, if_pos ((range _).mp fits)]
    rfl
  · rw [if_neg fits, if_neg (mt (range _).mpr fits)]
    rfl

/-- The sign decides which bound the digits after it are read to. -/
theorem readInteger_ofList {cs : List Char} {negative : Bool}
    (signed : takeSign cs = (negative, digits)) (filled : digits ≠ []) :
    readInteger (String.ofList cs) =
      if negative then (boundedDigits integerLimit .tooSmall 0 digits).map fun m : Nat => -(m : Int)
      else (boundedDigits (integerLimit - 1) .tooLarge 0 digits).map fun m : Nat => (m : Int) := by
  have something : (String.ofList cs).isEmpty = false := by
    rw [← Bool.not_eq_true, String.isEmpty_iff]
    intro empty
    obtain rfl : cs = [] := String.ofList_injective empty
    cases signed
    exact filled rfl
  unfold readInteger
  rw [something, String.toList_ofList, signed]
  simp only [List.isEmpty_iff, if_neg filled, Bool.false_eq_true, if_false]
  cases negative with
  | true => cases boundedDigits integerLimit .tooSmall 0 digits <;> rfl
  | false => cases boundedDigits (integerLimit - 1) .tooLarge 0 digits <;> rfl

/-- Text that spells an integer is read as it if 64 bits hold it, and as none otherwise. -/
theorem readInteger_of_spells (spelled : Spells s n) :
    (readInteger s).toOption = if Word n then some n else none := by
  cases spelled with
  | unsigned filled decimal =>
    rw [readInteger_ofList (takeSign_digits decimal) filled, if_neg Bool.false_ne_true,
      signedDigits_eq le_largest_iff decimal]
    split <;> rfl
  | @plus digits filled decimal =>
    have signed : takeSign ('+' :: digits) = (false, digits) := rfl
    rw [readInteger_ofList signed filled, if_neg Bool.false_ne_true,
      signedDigits_eq le_largest_iff decimal]
    split <;> rfl
  | @minus digits filled decimal =>
    have signed : takeSign ('-' :: digits) = (true, digits) := rfl
    rw [readInteger_ofList signed filled, if_pos rfl, signedDigits_eq le_smallest_iff decimal]
    split <;> rfl

end Integers

end Decimal

namespace Settings

open Decimal

variable {ini : Ini} {s : String} {n : Int}

/-- What comes of a setting that spells an integer. One that 64 bits hold is the depth, or refused
as one; any other has the effect of none. -/
structure DepthOf (ini : Ini) (n : Int) : Prop where
  taken : 1 ≤ n → n ≤ 1024 → ∃ depth : Nat, depth = n ∧ maxDepth ini = .ok depth
  refused : Word n → n < 1 ∨ 1024 < n → maxDepth ini =
    .error (.invalid "backtest" "max_depth" "max_depth must be an integer between 1 and 1024")
  unset : ¬ Word n → maxDepth ini = .ok 64
  unset_iff : maxDepth ini = .ok 64 ↔ n = 64 ∨ ¬ Word n

theorem getIntD_of_spells (set : ini.get? "backtest" "max_depth" = some s) (spelled : Spells s n)
    (default : Int) :
    ini.getIntD "backtest" "max_depth" default = if Word n then n else default := by
  simp only [Ini.getIntD, set, readInteger_of_spells spelled]
  split <;> rfl

/-- A depth that is read from the settings, or the default one, is taken from 1 to the ceiling. -/
theorem maxDepth_of_getIntD (read : ini.getIntD "backtest" "max_depth" defaultMaxDepth = n) :
    maxDepth ini = if 1 ≤ n ∧ n ≤ 1024 then .ok n.toNat else .error
      (.invalid "backtest" "max_depth" "max_depth must be an integer between 1 and 1024") := by
  subst read
  rfl

/-- Whatever integer a setting spells, with or without a sign and with any number of digits: from 1
to the ceiling it is the depth, any other of 64 bits is refused with the group and the key, and one
that 64 bits do not hold counts as not set. -/
theorem maxDepth_of_spells (set : ini.get? "backtest" "max_depth" = some s)
    (spelled : Spells s n) : DepthOf ini n := by
  have read := getIntD_of_spells set spelled defaultMaxDepth
  have depth := maxDepth_of_getIntD read
  by_cases word : Word n
  · rw [if_pos word] at depth
    refine ⟨?_, ?_, fun large => absurd word large, ?_⟩
    · intro above below
      rw [if_pos ⟨above, below⟩] at depth
      exact ⟨n.toNat, by omega, depth⟩
    · intro _ outside
      rwa [if_neg (by omega)] at depth
    · rw [depth, or_iff_left (not_not_intro word)]
      by_cases inside : 1 ≤ n ∧ n ≤ 1024
      · rw [if_pos inside, Except.ok.injEq]
        omega
      · rw [if_neg inside]
        constructor
        · intro same
          cases same
        · intro same
          exact absurd ⟨by omega, by omega⟩ inside
  · have outside : ¬ (1 ≤ n ∧ n ≤ 1024) := by
      intro inside
      apply word
      constructor
      · have : -(integerLimit : Int) ≤ 1 := by decide
        omega
      · have : (1024 : Int) < integerLimit := by decide
        omega
    have default : maxDepth ini = .ok 64 := by
      rw [depth, if_neg word]
      rfl
    exact ⟨fun above below => absurd ⟨above, below⟩ outside, fun large => absurd large word,
      fun _ => default, iff_of_true default (.inr word)⟩

/-- The largest integer of 64 bits is refused, and a depth is read with a sign and zeros. -/
theorem maxDepth_of_spells_largest_word :
    let setting (value : String) : Ini := [⟨"backtest", "max_depth", some value⟩]
    maxDepth (setting "9223372036854775807") = .error
        (.invalid "backtest" "max_depth" "max_depth must be an integer between 1 and 1024") ∧
      ∃ depth : Nat, depth = (32 : Int) ∧ maxDepth (setting "+0032") = .ok depth := by
  intro setting
  have largest : Spells "9223372036854775807" 9223372036854775807 :=
    @Spells.unsigned "9223372036854775807".toList (by decide) (List.all_eq_true.mp (by decide))
  have padded : Spells "+0032" 32 :=
    @Spells.plus "0032".toList (by decide) (List.all_eq_true.mp (by decide))
  have found (value : String) : (setting value).get? "backtest" "max_depth" = some value := by
    rfl
  exact ⟨(maxDepth_of_spells (found _) largest).refused (by decide) (.inr (by decide)),
    (maxDepth_of_spells (found _) padded).taken (by decide) (by decide)⟩

/-- The next integer is not refused: the depth is the one that is used without a setting. -/
theorem maxDepth_above_largest_word :
    ∃ ini, Ini.parse "[backtest]\nmax_depth = 9223372036854775808\n" = .ok ini ∧
      ini.get? "backtest" "max_depth" = some "9223372036854775808" ∧
      Spells "9223372036854775808" 9223372036854775808 ∧
      ¬ ((9223372036854775808 : Int) = 64) ∧ maxDepth ini = .ok 64 := by
  refine ⟨[⟨"backtest", "max_depth", some "9223372036854775808"⟩], ?_, ?_, ?_, ?_, ?_⟩
  · rfl
  · rfl
  · exact @Spells.unsigned "9223372036854775808".toList (by decide)
      (List.all_eq_true.mp (by decide))
  · decide
  · rfl

end Settings

end TradingRules
