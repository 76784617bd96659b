/-!
# Reads past the end

Everything indexed in this library counts from the newest value, index 0. The one failure a
read can have is an index that is not below the number of values.
-/

namespace TradingRules

/-- The index that was asked for and the number of values there were. -/
structure RangeError where
  index : Nat
  length : Nat
deriving DecidableEq, Repr

namespace RangeError

def message (e : RangeError) : String :=
  s!"index {e.index} out of range for series of length {e.length}"

/-- Succeeds on the indices below `length`. -/
def check (index length : Nat) : Except RangeError Unit :=
  if index < length then .ok () else .error ⟨index, length⟩

theorem check_eq_ok_iff {index length : Nat} : check index length = .ok () ↔ index < length := by
  unfold check
  split <;> simp_all

theorem check_of_le {index length : Nat} (h : length ≤ index) :
    check index length = .error ⟨index, length⟩ := by
  simp [check, Nat.not_lt.mpr h]

end RangeError

end TradingRules
