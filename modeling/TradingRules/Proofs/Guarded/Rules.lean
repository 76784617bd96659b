import TradingRules.Proofs.Guarded.Methods

/-!
# Guarded rules

Filters and exit rules on a guarded tape. A crossing looks at the index after its own, and a rule
that cannot be evaluated hides no other one, while a breach is never passed over. At a bar of a tape
that fits a machine word a rule answers as it does without guards.
-/

namespace TradingRules

open Guarded

/-- A tape whose answers are guarded. -/
structure GuardedTape where
  length : Nat
  value : Method → Nat → Guarded Float

/-- A tape whose answers have nothing to guard. -/
def Tape.guarded (t : Tape) : GuardedTape where
  length := t.length
  value m i := of (t.value m i)

abbrev GuardedStore := List (Method × GuardedSeries Float)

def Store.guarded (store : Store) : GuardedStore :=
  store.map fun (m, series) => (m, series.guarded)

namespace GuardedStore

def find? : GuardedStore → Method → Option (GuardedSeries Float)
  | [], _ => none
  | (held, series) :: rest, m => if held = m then some series else find? rest m

def extend (a : Asset) : GuardedStore → List Method → Guarded GuardedStore
  | store, [] => .ok store
  | store, m :: rest =>
    match find? store m with
    | some _ => extend a store rest
    | none => do extend a ((m, ← Guarded.evaluate a m) :: store) rest

def build (a : Asset) (methods : List Method) : Guarded GuardedStore :=
  extend a [] methods

def tape (store : GuardedStore) (a : Asset) : GuardedTape where
  length := a.length
  value m i := match find? store m with
    | some series => series.read i
    | none => Guarded.valueAt a m i

theorem find?_guarded (store : Store) (m : Method) :
    find? (Store.guarded store) m = (Store.find? store m).map Series.guarded := by
  induction store with
  | nil => rfl
  | cons entry rest ih =>
    simp only [Store.guarded, List.map_cons, find?, Store.find?]
    split
    · rfl
    · exact ih

variable {a : Asset} (fits : a.length < wordCount)
include fits

theorem extend_eq (store : Store) (methods : List Method) :
    extend a (Store.guarded store) methods =
      Store.guarded <$> of (Store.extend a store methods) := by
  induction methods generalizing store with
  | nil => rfl
  | cons m rest ih =>
    rw [extend, Store.extend, find?_guarded]
    cases Store.find? store m with
    | some series => exact ih store
    | none =>
      simp only [Option.map_none, Guarded.evaluate_eq fits, m.evaluate_eq, of_ok, map_ok, ok_bind]
      exact ih ((m, Series.ofList (m.values a.history)) :: store)

theorem build_eq (methods : List Method) :
    build a methods = Store.guarded <$> of (Store.build a methods) :=
  extend_eq fits [] methods

theorem tape_eq (store : Store) : tape (Store.guarded store) a = (store.tape a).guarded := by
  refine congrArg (GuardedTape.mk a.length) (funext fun m => funext fun i => ?_)
  rw [find?_guarded]
  simp only [Store.tape]
  cases Store.find? store m with
  | none => exact valueAt_eq fits m i
  | some series => rfl

end GuardedStore

namespace Guarded

section Decisions

variable (t : GuardedTape) (i : Nat)

def related (relation : Float → Float → Bool) (lhs rhs : Method) : Guarded Bool := do
  let x ← t.value lhs i
  let y ← t.value rhs i
  return relation x y

def crossed (now before : Float → Float → Bool) (lhs rhs : Method) : Guarded Bool := do
  let previous ← sum i 1
  of (RangeError.check previous t.length)
  let today ← related t i now lhs rhs
  let yesterday ← related t previous before lhs rhs
  return today && yesterday

mutual

def holds : Filter → Guarded Bool
  | .always b => .ok b
  | .compare op lhs rhs => related t i op.holds lhs rhs
  | .crossAbove lhs rhs => crossed t i (· > ·) (· ≤ ·) lhs rhs
  | .crossBelow lhs rhs => crossed t i (· < ·) (· ≥ ·) lhs rhs
  | .between operand lower upper => do
    let x ← t.value operand i
    return x ≥ lower && x ≤ upper
  | .all args => holdsAll args
  | .any args => holdsAny args
  | .not arg => do return !(← holds arg)

def holdsAll : List Filter → Guarded Bool
  | [] => .ok true
  | f :: rest => do if ← holds f then holdsAll rest else return false

def holdsAny : List Filter → Guarded Bool
  | [] => .ok false
  | f :: rest => do if ← holds f then return true else holdsAny rest

end

def fires : ExitRule → Guarded Bool
  | .takeProfit target price => do return (← t.value price i) ≥ target
  | .stopLoss target price => do return (← t.value price i) ≤ target
  | .signal filter => holds t i filter

def triggered : List ExitRule → Guarded (Option ExitRule)
  | [] => .ok none
  | rule :: rest => do
    match ← attempt (fires t i rule) with
    | .ok true => return some rule
    | .ok false => triggered rest
    | .error e =>
      match ← attempt (triggered rest) with
      | .ok (some later) => return some later
      | _ => .error (.error e)

/-- The quote of a bar, which must be there. -/
def quote (a : Asset) : Guarded Quote := do
  match ← quote? a i with
  | some q => return q
  | none => .error (.breach (.outside i a.length))

def enter (a : Asset) (s : Strategy) : Guarded (Option Position) := do
  if ← holds t i s.entry then
    let q ← quote i a
    return some ⟨i, q.time, ← t.value s.price i⟩
  else return none

def leave (s : Strategy) : Guarded (Option Float) := do
  match ← triggered t i s.exits with
  | some _ => return some (← t.value s.price i)
  | none => return none

def close (a : Asset) (p : Position) (price : Float) : Guarded RoundTrip := do
  let q ← quote i a
  return p.close ⟨i, q.time⟩ price

end Decisions

section Unguarded

variable {t : Tape} {i : Nat}

theorem related_eq (relation : Float → Float → Bool) (lhs rhs : Method) :
    related t.guarded i relation lhs rhs = of (Filter.related t i relation lhs rhs) := by
  simp only [related, Filter.related, Tape.guarded, of_bind, pure_eq_ok, of_ok]

theorem crossed_eq (fits : i + 1 < wordCount) (now before : Float → Float → Bool)
    (lhs rhs : Method) :
    crossed t.guarded i now before lhs rhs = of (Filter.crossed t i now before lhs rhs) := by
  simp only [crossed, Filter.crossed, sum_eq fits, related_eq, of_bind, ok_bind, pure_eq_ok, of_ok]
  rfl

mutual

theorem holds_eq (fits : i + 1 < wordCount) :
    (f : Filter) → holds t.guarded i f = of (f.evaluate t i)
  | .always b => rfl
  | .compare op lhs rhs => related_eq op.holds lhs rhs
  | .crossAbove lhs rhs => crossed_eq fits (· > ·) (· ≤ ·) lhs rhs
  | .crossBelow lhs rhs => crossed_eq fits (· < ·) (· ≥ ·) lhs rhs
  | .between operand lower upper => by
    simp only [holds, Filter.evaluate, Tape.guarded, of_bind, pure_eq_ok, of_ok]
  | .all args => by
    rw [holds, Filter.evaluate]
    exact holdsAll_eq fits args
  | .any args => by
    rw [holds, Filter.evaluate]
    exact holdsAny_eq fits args
  | .not arg => by
    simp only [holds, Filter.evaluate, holds_eq fits arg, of_bind, pure_eq_ok, of_ok]

theorem holdsAll_eq (fits : i + 1 < wordCount) :
    (fs : List Filter) → holdsAll t.guarded i fs = of (Filter.evaluateAll t i fs)
  | [] => rfl
  | f :: rest => by
    simp only [holdsAll, Filter.evaluateAll, holds_eq fits f, holdsAll_eq fits rest, of_bind,
      pure_eq_ok, of_ok, apply_ite of]

theorem holdsAny_eq (fits : i + 1 < wordCount) :
    (fs : List Filter) → holdsAny t.guarded i fs = of (Filter.evaluateAny t i fs)
  | [] => rfl
  | f :: rest => by
    simp only [holdsAny, Filter.evaluateAny, holds_eq fits f, holdsAny_eq fits rest, of_bind,
      pure_eq_ok, of_ok, apply_ite of]

end

theorem fires_eq (fits : i + 1 < wordCount) (rule : ExitRule) :
    fires t.guarded i rule = of (rule.fires t i) := by
  cases rule with
  | takeProfit target price =>
    simp only [fires, ExitRule.fires, Tape.guarded, of_bind, pure_eq_ok, of_ok]
  | stopLoss target price =>
    simp only [fires, ExitRule.fires, Tape.guarded, of_bind, pure_eq_ok, of_ok]
  | signal filter => exact holds_eq fits filter

theorem triggered_eq (fits : i + 1 < wordCount) (rules : List ExitRule) :
    triggered t.guarded i rules = of (TradingRules.triggered t i rules) := by
  induction rules with
  | nil => rfl
  | cons rule rest ih =>
    simp only [triggered, TradingRules.triggered, fires_eq fits, ih, attempt_of, ok_bind]
    cases rule.fires t i with
    | ok answer => cases answer <;> rfl
    | error e =>
      cases TradingRules.triggered t i rest with
      | ok found => cases found <;> rfl
      | error e' => rfl

variable {a : Asset}

theorem quote_eq (inside : i < a.history.length) : quote i a = .ok a.history[i] := by
  rw [quote, quote?_eq, a.quote?_eq, List.getElem?_eq_getElem inside, ok_bind]
  rfl

theorem enter_eq (fits : i + 1 < wordCount) (inside : i < a.history.length) (s : Strategy) :
    enter t.guarded i a s = of (s.enter t ⟨i, a.history[i].time⟩) := by
  simp only [enter, Strategy.enter, holds_eq fits, quote_eq inside, ok_bind, of_bind, pure_eq_ok,
    of_ok, apply_ite of]
  rfl

theorem leave_eq (fits : i + 1 < wordCount) (time : Timestamp) (s : Strategy) :
    leave t.guarded i s = of (s.leave t ⟨i, time⟩) := by
  simp only [leave, Strategy.leave, triggered_eq fits, of_bind]
  congr 1
  funext found
  cases found with
  | none => rfl
  | some rule => simp only [Tape.guarded, of_bind, pure_eq_ok, of_ok]

theorem close_eq (inside : i < a.history.length) (p : Position) (price : Float) :
    close i a p price = .ok (p.close ⟨i, a.history[i].time⟩ price) := by
  rw [close, quote_eq inside]
  rfl

end Unguarded

end Guarded

end TradingRules
