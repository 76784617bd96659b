import TradingRules.Text.Blank
import TradingRules.Text.Digits
import TradingRules.Timestamp

/-!
# Reading timestamps

A date is a year, a month and a day joined by hyphens; a time is an hour, a minute and a second
joined by colons. Blanks may stand before each number, numbers may lack leading zeros, and a year
with a sign may have any number of digits. A date alone means its midnight.
-/

namespace TradingRules.Timestamp

open Text

/-- A number of at least one digit, and of at most `width` ones if a width is given. -/
def number? (width : Option Nat) (cs : List Char) : Option (Nat × List Char) :=
  let run := cs.takeWhile Char.isDigit
  let digits := match width with
    | some w => run.take w
    | none => run
  if digits.isEmpty then none else some (digitsValue digits, cs.drop digits.length)

def field? (cs : List Char) : Option (Nat × List Char) :=
  number? (some 2) (trimLeft cs)

def year? (cs : List Char) : Option (Int × List Char) :=
  match trimLeft cs with
  | '-' :: rest => (number? none rest).map fun (n, rest) => (-(n : Int), rest)
  | '+' :: rest => (number? none rest).map fun (n, rest) => ((n : Int), rest)
  | rest => (number? (some 4) rest).map fun (n, rest) => ((n : Int), rest)

def mark? (mark : Char) : List Char → Option (List Char)
  | c :: rest => if c = mark then some rest else none
  | [] => none

/-- A date and what follows it. -/
def date? (cs : List Char) : Option ((Int × Nat × Nat) × List Char) := do
  let (year, rest) ← year? cs
  let (month, rest) ← field? (← mark? '-' rest)
  let (day, rest) ← field? (← mark? '-' rest)
  return ((year, month, day), rest)

/-- A time of day and what follows it. -/
def time? (cs : List Char) : Option ((Nat × Nat × Nat) × List Char) := do
  let (hour, rest) ← field? cs
  let (minute, rest) ← field? (← mark? ':' rest)
  let (second, rest) ← field? (← mark? ':' rest)
  return ((hour, minute, second), rest)

/-- Reads the whole text, blanks at its ends apart. -/
def parse? (s : String) : Option Timestamp := do
  let ((year, month, day), rest) ← date? (trim s.toList)
  if rest.isEmpty then ofFields? year month day 0 0 0
  else
    let ((hour, minute, second), rest) ← time? rest
    if rest.isEmpty then ofFields? year month day hour minute second else none

end TradingRules.Timestamp
