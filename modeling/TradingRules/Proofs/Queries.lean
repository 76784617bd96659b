import TradingRules.Strategy

/-!
# Queries

A rule asks for values of methods at bars and goes on with each answer, so what it asks next depends
on what it was told. Here it is kept apart from who answers: a tape, or a store that has no answer
for a method it does not hold and stops the whole computation there, with no way to recover from it.
-/

namespace TradingRules

/-- A computation that asks for values of methods at bars, one after the other. -/
inductive Query (α : Type) where
  | done (result : α)
  | ask (m : Method) (i : Nat) (next : Except RangeError Float → Query α)

namespace Query

variable {α β : Type}

def bind : Query α → (α → Query β) → Query β
  | done result, f => f result
  | ask m i next, f => ask m i fun answer => (next answer).bind f

instance : Monad Query where
  pure := done
  bind := bind

/-- What a computation comes to if a tape answers. -/
def run (t : Tape) : Query α → α
  | done result => result
  | ask m i next => (next (t.value m i)).run t

/-- What is asked if a tape answers. -/
def asked (t : Tape) : Query α → List (Method × Nat)
  | done _ => []
  | ask m i next => (m, i) :: (next (t.value m i)).asked t

/-- What a computation comes to if a store answers: nothing as soon as it asks for a method that the
store does not hold. -/
def runHeld (store : Store) : Query α → Option α
  | done result => some result
  | ask m i next =>
    match store.find? m with
    | some series => (next (series.read i)).runHeld store
    | none => none

/-- Only some methods are asked for, whatever the answers are. -/
def AsksOnly (P : Method → Prop) : Query α → Prop
  | done _ => True
  | ask m _ next => P m ∧ ∀ answer, (next answer).AsksOnly P

variable {P : Method → Prop} {q : Query α} {f : α → Query β} {n i : Nat} {m : Method}

theorem run_bind (t : Tape) : (q >>= f).run t = (f (q.run t)).run t := by
  induction q with
  | done result => rfl
  | ask m i next ih => exact ih (t.value m i)

theorem AsksOnly.bind (asks : q.AsksOnly P) (rest : ∀ result, (f result).AsksOnly P) :
    (q >>= f).AsksOnly P := by
  induction q with
  | done result => exact rest result
  | ask m i next ih => exact ⟨asks.1, fun answer => ih answer (asks.2 answer)⟩

theorem AsksOnly.asked (asks : q.AsksOnly P) (t : Tape) : ∀ read ∈ q.asked t, P read.1 := by
  induction q with
  | done result =>
    intro read member
    cases member
  | ask m i next ih =>
    rw [Query.asked, List.forall_mem_cons]
    exact ⟨asks.1, ih _ (asks.2 _)⟩

/-- A store that holds all methods asked for answers like any tape that reads what is held from
it. -/
theorem AsksOnly.runHeld {store : Store} {t : Tape} (asks : q.AsksOnly P)
    (held : ∀ m, P m → ∃ series, store.find? m = some series ∧ ∀ i, t.value m i = series.read i) :
    q.runHeld store = some (q.run t) := by
  induction q with
  | done result => rfl
  | ask m i next ih =>
    obtain ⟨series, found, reads⟩ := held m asks.1
    simp only [Query.runHeld, found]
    rw [Query.run, reads]
    exact ih _ (asks.2 _)

/-- A query comes to what is computed from a tape with a given number of bars, and asks for no other
methods than some. -/
structure Computes (q : Query α) (n : Nat) (P : Method → Prop) (plain : Tape → α) : Prop where
  run : ∀ t, t.length = n → q.run t = plain t
  asks : q.AsksOnly P

namespace Computes

variable {plain other : Tape → α}

theorem done (result : α) : (Query.done result).Computes n P fun _ => result :=
  ⟨fun _ _ => rfl, trivial⟩

/-- A query goes on as the whole computation does after the result that it comes to first. -/
theorem bind {whole : Tape → β} (first : q.Computes n P plain)
    (rest : ∀ result, ∃ later, (f result).Computes n P later ∧
      ∀ t, plain t = result → later t = whole t) :
    (q >>= f).Computes n P whole where
  run t length := by
    obtain ⟨later, computes, same⟩ := rest (plain t)
    rw [run_bind, first.run t length, computes.run t length, same t rfl]
  asks := first.asks.bind fun result => by
    obtain ⟨later, computes, -⟩ := rest result
    exact computes.asks

theorem map (computes : q.Computes n P plain) (g : α → β) :
    (q >>= fun result => pure (g result)).Computes n P fun t => g (plain t) :=
  computes.bind fun result => ⟨_, .done (g result), fun t same => by rw [same]⟩

theorem congr (computes : q.Computes n P plain)
    (same : ∀ t, t.length = n → plain t = other t) : q.Computes n P other :=
  ⟨fun t length => (computes.run t length).trans (same t length), computes.asks⟩

end Computes

end Query

/-- A query that may fail. Its failure is a result: whoever runs it may go on. -/
abbrev Asking (α : Type) := ExceptT RangeError Query α

namespace Asking

variable {α β : Type} {P : Method → Prop} {n : Nat}

def value (m : Method) (i : Nat) : Asking Float :=
  ExceptT.mk (.ask m i .done)

/-- A result that nothing is asked for. -/
def of (r : Except RangeError α) : Asking α :=
  ExceptT.mk (.done r)

/-- What a tape computes is computed without it, and only some methods are asked for. -/
abbrev Computes (q : Asking α) (n : Nat) (P : Method → Prop)
    (plain : Tape → Except RangeError α) : Prop :=
  Query.Computes q.run n P plain

namespace Computes

variable {q : Asking α} {f : α → Asking β} {plain : Tape → Except RangeError α}
  {g : α → Tape → Except RangeError β}

theorem value {m : Method} (wanted : P m) (i : Nat) :
    (Asking.value m i).Computes n P fun t => t.value m i :=
  ⟨fun _ _ => rfl, wanted, fun _ => trivial⟩

theorem pure (x : α) : (Pure.pure x : Asking α).Computes n P fun _ => Pure.pure x :=
  ⟨fun _ _ => rfl, trivial⟩

theorem of (r : Except RangeError α) : (Asking.of r).Computes n P fun _ => r :=
  .done r

theorem bind (first : q.Computes n P plain) (rest : ∀ x, (f x).Computes n P (g x)) :
    (q >>= f).Computes n P fun t => plain t >>= fun x => g x t where
  run t length := by
    change (q.run >>= ExceptT.bindCont f).run t = _
    rw [Query.run_bind, first.run t length]
    cases plain t with
    | ok x => exact (rest x).run t length
    | error e => rfl
  asks := by
    refine Query.AsksOnly.bind first.asks fun r => ?_
    cases r with
    | ok x => exact (rest x).asks
    | error e => trivial

end Computes

end Asking

end TradingRules
