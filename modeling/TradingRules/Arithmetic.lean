/-!
# The arithmetic of prices

Averages, recurrences and accounts are written once over this interface. They run on binary64
numbers, where every operation rounds and their order is part of the result; over the rationals
the same definitions are exact. No law is assumed of the operations.
-/

namespace TradingRules

class Arithmetic (α : Type) extends Add α, Sub α, Mul α, Div α, Neg α, LT α, LE α where
  /-- A count as a number; over binary64, the nearest one. -/
  count : Nat → α
  abs : α → α
  decLt : DecidableLT α
  decLe : DecidableLE α

namespace Arithmetic

variable {α : Type} [Arithmetic α]

instance : DecidableLT α := decLt
instance : DecidableLE α := decLe

/-- The larger of two numbers and the second of two equal ones. What is not comparable with itself
loses to anything. -/
def larger (a b : α) : α :=
  if b < a then a else if b ≤ b then b else a

/-- The smaller of two numbers and the second of two equal ones. What is not comparable with itself
loses to anything. -/
def smaller (a b : α) : α :=
  if a < b then a else if b ≤ b then b else a

end Arithmetic

instance : Arithmetic Float where
  count := Float.ofNat
  abs := Float.abs
  decLt := inferInstance
  decLe := inferInstance

instance : Arithmetic Rat where
  count n := n
  abs q := if q < 0 then -q else q
  decLt := inferInstance
  decLe := inferInstance

end TradingRules
