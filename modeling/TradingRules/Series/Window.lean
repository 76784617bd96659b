import TradingRules.Arithmetic
import TradingRules.Series

/-!
# Windows and differences of series

A window re-indexes a stretch of another series; a difference reads two. Where a window ends is
computed in machine words, so the end of a window that no series could hold comes out small and
the window is accepted; its reads then wrap in the same way. Skipping and truncating cut to what
there is, so over a series that fits a machine word nothing in them wraps.
-/

namespace TradingRules

/-- The number of values of a machine word. -/
def wordCount : Nat := 18446744073709551616

/-- A sum of indices in machine words. -/
def wordSum (a b : Nat) : Nat := (a + b) % wordCount

theorem wordSum_eq {a b : Nat} (h : a + b < wordCount) : wordSum a b = a + b :=
  Nat.mod_eq_of_lt h

/-- Why series do not fit together. -/
inductive Misfit where
  | window (start stop length : Nat)
  | operands
deriving DecidableEq, Repr

def Misfit.message : Misfit → String
  | .window start stop length =>
    s!"invariant violated: window {start}..{stop} exceeds base series of length {length}"
  | .operands => "invariant violated: abs_diff operands differ in length"

namespace Series

variable {α : Type}

/-- The `length` values of `base` from `offset` on. -/
def slice (base : Series α) (offset length : Nat) : Series α :=
  checked length fun i => base.read (wordSum offset i)

/-- The slice, if it ends inside `base`. -/
def window (base : Series α) (offset length : Nat) : Except Misfit (Series α) :=
  if wordSum offset length ≤ base.length then .ok (base.slice offset length)
  else .error (.window offset (wordSum offset length) base.length)

/-- Drops the `n` newest values. -/
def skip (base : Series α) (n : Nat) : Series α :=
  checked (base.length - n) fun i => base.read (n + i)

/-- Keeps the `n` newest values. -/
def truncate (base : Series α) (n : Nat) : Series α :=
  checked (min n base.length) base.read

theorem checked_congr {length : Nat} {value value' : Nat → Except RangeError α}
    (agree : ∀ i, i < length → value i = value' i) :
    checked length value = checked length value' := by
  have reads : ∀ i, (checked length value).read i = (checked length value').read i := by
    intro i
    by_cases h : i < length
    · simp only [checked, RangeError.check_eq_ok_iff.mpr h]
      exact agree i h
    · simp only [checked, RangeError.check_of_le (Nat.le_of_not_lt h)]
      rfl
  exact congrArg (Series.mk length) (funext reads)

/-- Over a series that fits a machine word, dropping values is a window. -/
theorem skip_eq_slice {base : Series α} (fits : base.length ≤ wordCount) (n : Nat) :
    base.skip n = base.slice (min n base.length) (base.length - min n base.length) := by
  have length : base.length - min n base.length = base.length - n := by omega
  rw [slice, length]
  refine checked_congr fun i hi => ?_
  rw [Nat.min_eq_left (by omega), wordSum_eq (by omega)]

/-- Over a series that fits a machine word, keeping values is a window. -/
theorem truncate_eq_slice {base : Series α} (fits : base.length ≤ wordCount) (n : Nat) :
    base.truncate n = base.slice 0 (min n base.length) := by
  refine checked_congr fun i hi => ?_
  rw [wordSum_eq (by omega), Nat.zero_add]

/-- One value, `length` times. -/
def replicate (length : Nat) (x : α) : Series α :=
  checked length fun _ => .ok x

variable [Arithmetic α]

/-- Each value less the next older one. -/
def change (base : Series α) : Series α :=
  checked (base.length - 1) fun i => do
    return (← base.read i) - (← base.read (i + 1))

/-- The distance between the values of two series of one length. -/
def distance (a b : Series α) : Series α where
  length := a.length
  read i := do
    return Arithmetic.abs ((← a.read i) - (← b.read i))

/-- The distance, if the operands have one length. -/
def absDiff (a b : Series α) : Except Misfit (Series α) :=
  if a.length = b.length then .ok (a.distance b) else .error .operands

end Series

end TradingRules
