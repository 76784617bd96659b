/-!
# Timestamps

A day of the proleptic Gregorian calendar and a time of that day to the second. A minute may have
a sixty-first second. Timestamps are ordered by their place on the time line.
-/

namespace TradingRules

def isLeapYear (year : Int) : Bool :=
  (year % 4 == 0 && year % 100 != 0) || year % 400 == 0

def daysInMonth (year : Int) (month : Nat) : Nat :=
  match month with
  | 2 => if isLeapYear year then 29 else 28
  | 4 | 6 | 9 | 11 => 30
  | _ => 31

/-- The first and the last year a timestamp can have. -/
def firstYear : Int := -262143
def lastYear : Int := 262142

structure Timestamp where
  year : Int
  month : Nat
  day : Nat
  hour : Nat
  minute : Nat
  second : Nat
  year_mem : firstYear ≤ year ∧ year ≤ lastYear
  month_mem : 1 ≤ month ∧ month ≤ 12
  day_mem : 1 ≤ day ∧ day ≤ daysInMonth year month
  hour_lt : hour < 24
  minute_lt : minute < 60
  second_le : second ≤ 60
deriving DecidableEq

namespace Timestamp

/-- The timestamp with the given fields, if there is one. -/
def ofFields? (year : Int) (month day hour minute second : Nat) : Option Timestamp :=
  if h : (firstYear ≤ year ∧ year ≤ lastYear) ∧ (1 ≤ month ∧ month ≤ 12) ∧
      (1 ≤ day ∧ day ≤ daysInMonth year month) ∧ hour < 24 ∧ minute < 60 ∧ second ≤ 60 then
    some ⟨year, month, day, hour, minute, second, h.1, h.2.1, h.2.2.1, h.2.2.2.1, h.2.2.2.2.1,
      h.2.2.2.2.2⟩
  else none

/-- A place on a line that has room for the longest month and the longest minute everywhere. -/
def ordinal (t : Timestamp) : Int :=
  ((((t.year * 13 + t.month) * 32 + t.day) * 24 + t.hour) * 60 + t.minute) * 61 + t.second

instance : LE Timestamp := ⟨fun a b => a.ordinal ≤ b.ordinal⟩

instance : DecidableLE Timestamp := fun a b => inferInstanceAs (Decidable (a.ordinal ≤ b.ordinal))

theorem le_refl (a : Timestamp) : a ≤ a := Int.le_refl a.ordinal

theorem le_trans {a b c : Timestamp} (hab : a ≤ b) (hbc : b ≤ c) : a ≤ c :=
  Int.le_trans hab hbc

theorem le_total (a b : Timestamp) : a ≤ b ∨ b ≤ a := Int.le_total a.ordinal b.ordinal

theorem daysInMonth_le (year : Int) (month : Nat) : daysInMonth year month ≤ 31 := by
  unfold daysInMonth
  split <;> try split
  all_goals omega

theorem ordinal_inj {a b : Timestamp} (h : a.ordinal = b.ordinal) : a = b := by
  have hda := Nat.le_trans a.day_mem.2 (daysInMonth_le a.year a.month)
  have hdb := Nat.le_trans b.day_mem.2 (daysInMonth_le b.year b.month)
  have := a.month_mem; have := b.month_mem
  have := a.hour_lt; have := b.hour_lt
  have := a.minute_lt; have := b.minute_lt
  have := a.second_le; have := b.second_le
  unfold ordinal at h
  cases a; cases b
  simp only [mk.injEq] at *
  omega

theorem le_antisymm {a b : Timestamp} (hab : a ≤ b) (hba : b ≤ a) : a = b :=
  ordinal_inj (Int.le_antisymm hab hba)

/-- The digits of `n`, filled up with zeros to `width`. -/
def zeroPadded (width n : Nat) : String :=
  let digits := toString n
  "".pushn '0' (width - digits.length) ++ digits

/-- Four digits for the years 0 to 9999; a sign and at least four digits for all others. -/
def yearText (year : Int) : String :=
  if 0 ≤ year ∧ year ≤ 9999 then zeroPadded 4 year.natAbs
  else (if year < 0 then "-" else "+") ++ zeroPadded 4 year.natAbs

def text (t : Timestamp) : String :=
  yearText t.year ++ "-" ++ zeroPadded 2 t.month ++ "-" ++ zeroPadded 2 t.day ++ " " ++
    zeroPadded 2 t.hour ++ ":" ++ zeroPadded 2 t.minute ++ ":" ++ zeroPadded 2 t.second

end Timestamp

end TradingRules
