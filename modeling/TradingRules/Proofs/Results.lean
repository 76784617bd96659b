import TradingRules.RangeError

/-!
# Results that may fail

A computation either has a value or one error. The rules below take a chain of such computations
apart, and compare two of them by their values alone, whatever their errors say.
-/

namespace TradingRules

universe u v

section Chains

variable {ε : Type u} {α β : Type v}

@[simp] theorem pure_eq_ok (x : α) : (pure x : Except ε α) = .ok x := rfl

@[simp] theorem ok_bind (x : α) (f : α → Except ε β) : (Except.ok x >>= f) = f x := rfl

@[simp] theorem error_bind (e : ε) (f : α → Except ε β) : (Except.error e >>= f) = .error e := rfl

@[simp] theorem map_ok (f : α → β) (x : α) : f <$> (Except.ok x : Except ε α) = .ok (f x) := rfl

@[simp] theorem map_error (f : α → β) (e : ε) :
    f <$> (Except.error e : Except ε α) = .error e := rfl

theorem bind_eq_ok_iff {r : Except ε α} {f : α → Except ε β} {y : β} :
    (r >>= f) = .ok y ↔ ∃ x, r = .ok x ∧ f x = .ok y := by
  constructor
  · intro h
    cases r with
    | ok x => exact ⟨x, rfl, h⟩
    | error e => cases h
  · rintro ⟨x, rfl, hy⟩
    exact hy

@[simp] theorem toOption_ok (x : α) : (Except.ok x : Except ε α).toOption = some x := rfl

@[simp] theorem toOption_error (e : ε) : (Except.error e : Except ε α).toOption = none := rfl

theorem toOption_eq_some_iff {r : Except ε α} {x : α} : r.toOption = some x ↔ r = .ok x := by
  cases r <;> simp

theorem toOption_bind (r : Except ε α) (f : α → Except ε β) :
    (r >>= f).toOption = r.toOption.bind fun x => (f x).toOption := by
  cases r <;> rfl

/-- Two questions with one value, and after it one value in either case. -/
theorem toOption_branch {γ : Type} {r r' : Except ε Bool} {yes yes' no no' : Except ε γ}
    (asked : r.toOption = r'.toOption) (holds : yes.toOption = yes'.toOption)
    (fails : no.toOption = no'.toOption) :
    (do if ← r then yes else no).toOption = (do if ← r' then yes' else no').toOption := by
  rw [toOption_bind, toOption_bind, asked]
  congr 1
  funext answer
  cases answer with
  | false => exact fails
  | true => exact holds

/-- There is a value. -/
def Succeeds (r : Except ε α) : Prop := ∃ x, r = .ok x

@[simp] theorem succeeds_ok (x : α) : Succeeds (.ok x : Except ε α) := ⟨x, rfl⟩

@[simp] theorem not_succeeds_error (e : ε) : ¬ Succeeds (.error e : Except ε α) := by
  rintro ⟨x, h⟩
  cases h

/-- A chain succeeds if its first link does and the rest succeeds on the value. -/
theorem succeeds_bind_iff {r : Except ε α} {f : α → Except ε β} :
    Succeeds (r >>= f) ↔ ∃ x, r = .ok x ∧ Succeeds (f x) := by
  cases r with
  | ok x => simp
  | error e => simp

/-- Where the rest succeeds on every value or on none, the value does not matter. -/
theorem succeeds_bind_and {r : Except ε α} {f : α → Except ε β} {p : Prop}
    (rest : ∀ x, Succeeds (f x) ↔ p) : Succeeds (r >>= f) ↔ Succeeds r ∧ p := by
  cases r with
  | ok x => simp [rest]
  | error e => simp

theorem succeeds_bind_total {r : Except ε α} {f : α → Except ε β} (rest : ∀ x, Succeeds (f x)) :
    Succeeds (r >>= f) ↔ Succeeds r := by
  rw [succeeds_bind_and fun x => iff_true_intro (rest x), and_true]

theorem succeeds_bind_ok {r : Except ε α} {g : α → β} :
    Succeeds (r >>= fun x => .ok (g x)) ↔ Succeeds r :=
  succeeds_bind_total fun x => succeeds_ok (g x)

theorem succeeds_bind_bind_ok {γ : Type v} {r : Except ε α} {q : Except ε β} {g : α → β → γ} :
    Succeeds (r >>= fun x => q >>= fun y => .ok (g x y)) ↔ Succeeds r ∧ Succeeds q :=
  succeeds_bind_and fun _ => succeeds_bind_ok

/-- There is an error in place of a value. -/
def Fails (r : Except ε α) : Prop := ∃ e, r = .error e

@[simp] theorem not_fails_ok (x : α) : ¬ Fails (.ok x : Except ε α) := by
  rintro ⟨e, h⟩
  cases h

@[simp] theorem fails_error (e : ε) : Fails (.error e : Except ε α) := ⟨e, rfl⟩

theorem toOption_eq_none_iff {r : Except ε α} : r.toOption = none ↔ Fails r := by
  cases r <;> simp

instance decidableFails : (r : Except ε α) → Decidable (Fails r)
  | .ok x => .isFalse (not_fails_ok x)
  | .error e => .isTrue (fails_error e)

instance decidableEqOk [DecidableEq α] : (r : Except ε α) → (x : α) → Decidable (r = .ok x)
  | .ok y, x => decidable_of_iff (y = x) (by simp)
  | .error _, _ => .isFalse (by simp)

instance decidableEqError [DecidableEq ε] : (r : Except ε α) → (e : ε) → Decidable (r = .error e)
  | .ok _, _ => .isFalse (by simp)
  | .error e', e => decidable_of_iff (e' = e) (by simp)

/-- A list whose members all have a value is computed member by member. -/
theorem mapM_eq_ok {γ : Type v} {f : γ → Except ε α} {xs : List γ} {ys : List α}
    (length : ys.length = xs.length)
    (each : ∀ i (hx : i < xs.length) (hy : i < ys.length), f xs[i] = .ok ys[i]) :
    xs.mapM f = .ok ys := by
  induction xs generalizing ys with
  | nil =>
    obtain rfl := List.eq_nil_of_length_eq_zero length
    rfl
  | cons x rest ih =>
    cases ys with
    | nil => cases length
    | cons y ys =>
      have first : f x = .ok y := each 0 (Nat.succ_pos _) (Nat.succ_pos _)
      have tail : rest.mapM f = .ok ys := ih (Nat.succ.inj length) fun i hx hy =>
        each (i + 1) (Nat.succ_lt_succ hx) (Nat.succ_lt_succ hy)
      rw [List.mapM_cons, first, ok_bind, tail]
      rfl

/-- What is left of a result without its value. -/
def verdict (r : Except ε α) : Except ε PUnit := r.map fun _ => ⟨⟩

@[simp] theorem verdict_ok (x : α) : verdict (.ok x : Except ε α) = .ok ⟨⟩ := rfl

@[simp] theorem verdict_error (e : ε) : verdict (.error e : Except ε α) = .error e := rfl

theorem verdict_verdict (r : Except ε α) : verdict (verdict r) = verdict r := by
  cases r <;> rfl

theorem verdict_eq_error_iff {r : Except ε α} {e : ε} : verdict r = .error e ↔ r = .error e := by
  cases r <;> simp

theorem verdict_bind (r : Except ε α) (f : α → Except ε β) :
    verdict (r >>= f) = r >>= fun x => verdict (f x) := by
  cases r <;> rfl

/-- A chain that does not look at a value only needs the verdict. -/
theorem verdict_then (r : Except ε α) (f : PUnit → Except ε β) :
    verdict r >>= f = r >>= fun _ => f ⟨⟩ := by
  cases r <;> rfl

theorem bind_ok_self (r : Except ε α) : (r >>= .ok) = r := by
  cases r <;> rfl

theorem bind_ok_unit (r : Except ε α) : (r >>= fun _ => .ok ⟨⟩) = verdict r := by
  cases r <;> rfl

@[simp] theorem mapError_ok {δ : Type u} (g : ε → δ) (x : α) :
    (Except.ok x : Except ε α).mapError g = .ok x := rfl

@[simp] theorem mapError_error {δ : Type u} (g : ε → δ) (e : ε) :
    (Except.error e : Except ε α).mapError g = .error (g e) := rfl

theorem mapError_eq_ok_iff {δ : Type u} {g : ε → δ} {r : Except ε α} {x : α} :
    r.mapError g = .ok x ↔ r = .ok x := by
  cases r <;> simp

theorem mapError_eq_error_iff {δ : Type u} {g : ε → δ} {r : Except ε α} {d : δ} :
    r.mapError g = .error d ↔ ∃ e, r = .error e ∧ g e = d := by
  cases r <;> simp

theorem mapError_bind {δ : Type u} (g : ε → δ) (r : Except ε α) (f : α → Except ε β) :
    (r >>= f).mapError g = r.mapError g >>= fun x => (f x).mapError g := by
  cases r <;> rfl

/-- A chain fails where its first link does, or where the rest fails on the value. -/
theorem bind_eq_error_iff {r : Except ε α} {f : α → Except ε β} {e : ε} :
    (r >>= f) = .error e ↔ r = .error e ∨ ∃ x, r = .ok x ∧ f x = .error e := by
  cases r <;> simp

section Lists

variable {γ : Type v} {f : γ → Except ε PUnit}

theorem forM_eq_ok_iff {xs : List γ} : forM xs f = .ok ⟨⟩ ↔ ∀ x ∈ xs, f x = .ok ⟨⟩ := by
  induction xs with
  | nil => simp
  | cons x rest ih =>
    rw [List.forM_cons, bind_eq_ok_iff, List.forall_mem_cons]
    constructor
    · rintro ⟨⟨⟩, first, others⟩
      exact ⟨first, ih.mp others⟩
    · rintro ⟨first, others⟩
      exact ⟨⟨⟩, first, ih.mpr others⟩

/-- A list of demands fails with what the first one that fails fails with. -/
theorem forM_eq_error_iff {xs : List γ} {e : ε} : forM xs f = .error e ↔ ∃ before x after,
    xs = before ++ x :: after ∧ (∀ y ∈ before, f y = .ok ⟨⟩) ∧ f x = .error e := by
  constructor
  · intro failed
    induction xs with
    | nil => cases failed
    | cons x rest ih =>
      rw [List.forM_cons, bind_eq_error_iff] at failed
      rcases failed with first | ⟨⟨⟩, met, later⟩
      · exact ⟨[], x, rest, rfl, List.forall_mem_nil _, first⟩
      · obtain ⟨before, y, after, rfl, earlier, fails⟩ := ih later
        exact ⟨x :: before, y, after, rfl, List.forall_mem_cons.mpr ⟨met, earlier⟩, fails⟩
  · rintro ⟨before, x, after, rfl, earlier, fails⟩
    rw [List.forM_append, forM_eq_ok_iff.mpr earlier, ok_bind, List.forM_cons, fails, error_bind]

/-- What a list of demands fails with is what one of them fails with. -/
theorem forM_eq_error {xs : List γ} {e : ε} (failed : forM xs f = .error e) :
    ∃ x ∈ xs, f x = .error e := by
  obtain ⟨before, x, after, rfl, -, fails⟩ := forM_eq_error_iff.mp failed
  exact ⟨x, List.mem_append_right before List.mem_cons_self, fails⟩

theorem mapError_forM {δ : Type u} (g : ε → δ) (xs : List γ) :
    (forM xs f).mapError g = forM xs fun x => (f x).mapError g := by
  induction xs with
  | nil => rfl
  | cons x rest ih =>
    simp only [List.forM_cons, mapError_bind, ih]

end Lists

end Chains

end TradingRules
