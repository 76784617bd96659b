import TradingRules.Proofs.Series

/-!
# Guarded computations

A guarded computation does what a computation of this library does, and looks at everything that
one takes for granted: that a sum of indices is a machine word, that no difference of indices falls
below zero, that a window ends inside its base, that operands have one length and that a bar is
there. Where one of these is not so, the run ends for good. Such a breach is not part of any result
and nothing recovers from it, while a range error is an answer like any other.
-/

namespace TradingRules

/-- What ends a run for good. -/
inductive Breach where
  /-- An index, a length or a count that is no machine word. -/
  | overflow
  | misfit (cause : Misfit)
  /-- A place that is not there. -/
  | outside (index length : Nat)
deriving DecidableEq, Repr

/-- A guarded computation without a value has an error or has met a breach. -/
inductive Halt (ε : Type) where
  | error (e : ε)
  | breach (b : Breach)
deriving DecidableEq, Repr

abbrev Guarded (α : Type) := Except (Halt RangeError) α

namespace Guarded

variable {α β γ : Type}

/-- A computation that has nothing to guard. -/
def of (r : Except RangeError α) : Guarded α :=
  r.mapError Halt.error

/-- A sum of indices, if it is a machine word. -/
def sum (a b : Nat) : Guarded Nat :=
  if a + b < wordCount then .ok (a + b) else .error (.breach .overflow)

/-- A difference of indices, if it does not fall below zero. -/
def difference (a b : Nat) : Guarded Nat :=
  if b ≤ a then .ok (a - b) else .error (.breach .overflow)

def require (p : Prop) [Decidable p] (otherwise : Breach) : Guarded Unit :=
  if p then .ok () else .error (.breach otherwise)

/-- An error becomes a value, a breach does not. -/
def attempt : Guarded α → Guarded (Except RangeError α)
  | .ok x => .ok (.ok x)
  | .error (.error e) => .ok (.error e)
  | .error (.breach b) => .error (.breach b)

@[simp] theorem of_ok (x : α) : of (.ok x) = .ok x := rfl

@[simp] theorem of_error (e : RangeError) :
    of (.error e : Except RangeError α) = .error (.error e) := rfl

@[simp] theorem of_bind (r : Except RangeError α) (f : α → Except RangeError β) :
    of (r >>= f) = of r >>= fun x => of (f x) :=
  mapError_bind Halt.error r f

@[simp] theorem attempt_of (r : Except RangeError α) : attempt (of r) = .ok r := by
  cases r <;> rfl

theorem sum_eq {a b : Nat} (fits : a + b < wordCount) : sum a b = .ok (a + b) :=
  if_pos fits

example : sum 18446744073709551615 1 = .error (.breach .overflow) := rfl

theorem difference_eq {a b : Nat} (ordered : b ≤ a) : difference a b = .ok (a - b) :=
  if_pos ordered

theorem require_eq {p : Prop} [Decidable p] (holds : p) (otherwise : Breach) :
    require p otherwise = .ok () :=
  if_pos holds

/-- A list is computed member by member, and so are its guards. -/
theorem mapM_eq_of {f : γ → Guarded α} {g : γ → Except RangeError α} {xs : List γ}
    (each : ∀ x ∈ xs, f x = of (g x)) : xs.mapM f = of (xs.mapM g) := by
  induction xs with
  | nil => rfl
  | cons x rest ih =>
    obtain ⟨first, others⟩ := List.forall_mem_cons.mp each
    simp only [List.mapM_cons, first, ih others, of_bind, pure_eq_ok, of_ok]

theorem foldlM_eq_of {f : β → γ → Guarded β} {g : β → γ → Except RangeError β} {xs : List γ}
    (each : ∀ acc, ∀ x ∈ xs, f acc x = of (g acc x)) (start : β) :
    xs.foldlM f start = of (xs.foldlM g start) := by
  induction xs generalizing start with
  | nil => rfl
  | cons x rest ih =>
    have first : f start x = of (g start x) := each start x List.mem_cons_self
    have others : ∀ acc, ∀ y ∈ rest, f acc y = of (g acc y) :=
      fun acc y member => each acc y (List.mem_cons_of_mem x member)
    simp only [List.foldlM_cons, first, ih others, of_bind]

end Guarded

open Guarded

/-- A series whose reads are guarded. -/
structure GuardedSeries (α : Type) where
  length : Nat
  read : Nat → Guarded α

/-- A series whose reads have nothing to guard. -/
def Series.guarded {α : Type} (s : Series α) : GuardedSeries α where
  length := s.length
  read i := of (s.read i)

namespace GuardedSeries

variable {α : Type}

@[simp] theorem length_guarded (s : Series α) : s.guarded.length = s.length := rfl

@[simp] theorem read_guarded (s : Series α) (i : Nat) : s.guarded.read i = of (s.read i) := rfl

def checked (length : Nat) (value : Nat → Guarded α) : GuardedSeries α where
  length := length
  read i := do
    of (RangeError.check i length)
    value i

/-- The `length` values of `base` from `offset` on, which must all be there. -/
def window (base : GuardedSeries α) (offset length : Nat) : Guarded (GuardedSeries α) := do
  let stop ← sum offset length
  require (stop ≤ base.length) (.misfit (.window offset stop base.length))
  return checked length fun i => do base.read (← sum offset i)

def skip (base : GuardedSeries α) (n : Nat) : Guarded (GuardedSeries α) := do
  let offset := min n base.length
  base.window offset (← difference base.length offset)

def truncate (base : GuardedSeries α) (n : Nat) : Guarded (GuardedSeries α) :=
  base.window 0 (min n base.length)

/-- The distance of two series, which must have one length. -/
def absDiff [Arithmetic α] (a b : GuardedSeries α) : Guarded (GuardedSeries α) := do
  require (a.length = b.length) (.misfit .operands)
  return ⟨a.length, fun i => do return Arithmetic.abs ((← a.read i) - (← b.read i))⟩

def collect (length : Nat) (value : Nat → Guarded α) : Guarded (GuardedSeries α) := do
  return (Series.ofList (← (List.range length).mapM value)).guarded

def toList (s : GuardedSeries α) : Guarded (List α) :=
  (List.range s.length).mapM s.read

theorem checked_eq {n : Nat} {guardedValue : Nat → Guarded α} {value : Nat → Except RangeError α}
    (each : ∀ i, i < n → guardedValue i = of (value i)) :
    checked n guardedValue = (Series.checked n value).guarded := by
  have reads : ∀ i, (checked n guardedValue).read i = of ((Series.checked n value).read i) := by
    intro i
    by_cases inside : i < n
    · rw [Series.read_checked_of_lt inside, ← each i inside]
      simp only [checked, RangeError.check_eq_ok_iff.mpr inside, of_ok, ok_bind]
    · have beyond := Nat.le_of_not_lt inside
      rw [Series.read_checked_of_le beyond]
      simp only [checked, RangeError.check_of_le beyond, of_error, error_bind]
  exact congrArg (mk n) (funext reads)

/-- Inside a series that fits a machine word, no window meets a breach. -/
theorem window_eq {base : Series α} (fits : base.length < wordCount) {offset length : Nat}
    (inside : offset + length ≤ base.length) :
    base.guarded.window offset length = .ok (base.slice offset length).guarded := by
  have stop : offset + length < wordCount := by omega
  have whole : offset + length ≤ base.guarded.length := inside
  simp only [window, sum_eq stop, require_eq whole, ok_bind, pure_eq_ok]
  refine congrArg Except.ok (checked_eq fun i below => ?_)
  have place : offset + i < wordCount := by omega
  rw [sum_eq place, ok_bind, wordSum_eq place, read_guarded]

/-- A window that ends outside its base meets one. -/
example : (Series.ofList [3, 2, 1]).guarded.window 2 2 =
    .error (.breach (.misfit (.window 2 4 3))) := rfl

theorem skip_eq {base : Series α} (fits : base.length < wordCount) (n : Nat) :
    base.guarded.skip n = .ok (base.skip n).guarded := by
  have shorter : min n base.length ≤ base.length := Nat.min_le_right n base.length
  have inside : min n base.length + (base.length - min n base.length) ≤ base.length := by omega
  rw [Series.skip_eq_slice (Nat.le_of_lt fits), ← window_eq fits inside]
  simp only [skip, length_guarded, difference_eq shorter, ok_bind]

theorem truncate_eq {base : Series α} (fits : base.length < wordCount) (n : Nat) :
    base.guarded.truncate n = .ok (base.truncate n).guarded := by
  have inside : 0 + min n base.length ≤ base.length := by omega
  rw [Series.truncate_eq_slice (Nat.le_of_lt fits), ← window_eq fits inside]
  rfl

theorem absDiff_eq [Arithmetic α] {a b : Series α} (aligned : a.length = b.length) :
    a.guarded.absDiff b.guarded = .ok (a.distance b).guarded := by
  have operands : a.guarded.length = b.guarded.length := aligned
  simp only [absDiff, require_eq operands, ok_bind, pure_eq_ok]
  simp only [Series.guarded, Series.distance, of_bind, pure_eq_ok, of_ok]

theorem collect_eq {n : Nat} {guardedValue : Nat → Guarded α} {value : Nat → Except RangeError α}
    (each : ∀ i, i < n → guardedValue i = of (value i)) :
    collect n guardedValue = Series.guarded <$> of (Series.collect n value) := by
  have values : (List.range n).mapM guardedValue = of ((List.range n).mapM value) :=
    mapM_eq_of fun i member => each i (List.mem_range.mp member)
  rw [collect, Series.collect, values]
  cases (List.range n).mapM value <;> rfl

theorem toList_eq (s : Series α) : s.guarded.toList = of s.toList :=
  mapM_eq_of fun _ _ => rfl

end GuardedSeries

end TradingRules
