import TradingRules.Proofs.Operands
import TradingRules.Proofs.Queries
import TradingRules.Proofs.Replay

/-!
# Reads of a backtest

A backtest reads its store and nothing else. Its rules are written here as queries, which come to
what the rules come to on every tape. Whatever the answers are, they ask for no other methods than
the strategy lists, and the store holds all of these. That the store would leave other methods to
the asset is of no use to any run.
-/

namespace TradingRules

namespace Filter

section Queries

variable (n i : Nat)

def relatedQuery (relation : Float → Float → Bool) (lhs rhs : Method) : Asking Bool := do
  let x ← Asking.value lhs i
  let y ← Asking.value rhs i
  return relation x y

def crossedQuery (now before : Float → Float → Bool) (lhs rhs : Method) : Asking Bool := do
  Asking.of (RangeError.check (i + 1) n)
  let today ← relatedQuery i now lhs rhs
  let yesterday ← relatedQuery (i + 1) before lhs rhs
  return today && yesterday

mutual

def query : Filter → Asking Bool
  | always b => return b
  | compare op lhs rhs => relatedQuery i op.holds lhs rhs
  | crossAbove lhs rhs => crossedQuery n i (· > ·) (· ≤ ·) lhs rhs
  | crossBelow lhs rhs => crossedQuery n i (· < ·) (· ≥ ·) lhs rhs
  | between operand lower upper => do
    let x ← Asking.value operand i
    return x ≥ lower && x ≤ upper
  | all args => queryAll args
  | any args => queryAny args
  | not arg => do return !(← query arg)

def queryAll : List Filter → Asking Bool
  | [] => return true
  | f :: rest => do if ← query f then queryAll rest else return false

def queryAny : List Filter → Asking Bool
  | [] => return false
  | f :: rest => do if ← query f then return true else queryAny rest

end

end Queries

variable {n i : Nat} {P : Method → Prop}

theorem related_computes (relation : Float → Float → Bool) {lhs rhs : Method}
    (wanted : ∀ m ∈ [lhs, rhs], P m) :
    (relatedQuery i relation lhs rhs).Computes n P fun t => related t i relation lhs rhs :=
  have left := wanted lhs (by simp)
  have right := wanted rhs (by simp)
  .bind (.value left i) fun _ => .bind (.value right i) fun _ => .pure _

theorem crossed_computes (now before : Float → Float → Bool) {lhs rhs : Method}
    (wanted : ∀ m ∈ [lhs, rhs], P m) :
    (crossedQuery n i now before lhs rhs).Computes n P fun t => crossed t i now before lhs rhs := by
  have reads : (crossedQuery n i now before lhs rhs).Computes n P fun t => do
      RangeError.check (i + 1) n
      let today ← related t i now lhs rhs
      let yesterday ← related t (i + 1) before lhs rhs
      return today && yesterday :=
    .bind (.of _) fun _ => .bind (related_computes now wanted) fun _ =>
      .bind (related_computes before wanted) fun _ => .pure _
  refine reads.congr fun t length => ?_
  rw [crossed, length]

mutual

theorem query_computes : ∀ f : Filter, (∀ m ∈ f.methods, P m) →
    (f.query n i).Computes n P fun t => f.evaluate t i
  | always _, _ => .pure _
  | compare op .., wanted => related_computes op.holds wanted
  | crossAbove .., wanted => crossed_computes _ _ wanted
  | crossBelow .., wanted => crossed_computes _ _ wanted
  | between operand .., wanted =>
    .bind (.value (wanted operand List.mem_cons_self) i) fun _ => .pure _
  | all args, wanted => queryAll_computes args wanted
  | any args, wanted => queryAny_computes args wanted
  | not arg, wanted => .bind (query_computes arg wanted) fun _ => .pure _

theorem queryAll_computes : ∀ fs : List Filter, (∀ m ∈ methodsOf fs, P m) →
    (queryAll n i fs).Computes n P fun t => evaluateAll t i fs
  | [], _ => .pure _
  | f :: rest, wanted => by
    obtain ⟨here, others⟩ := List.forall_mem_append.mp wanted
    refine .bind (query_computes f here) fun b => ?_
    cases b
    · exact .pure _
    · exact queryAll_computes rest others

theorem queryAny_computes : ∀ fs : List Filter, (∀ m ∈ methodsOf fs, P m) →
    (queryAny n i fs).Computes n P fun t => evaluateAny t i fs
  | [], _ => .pure _
  | f :: rest, wanted => by
    obtain ⟨here, others⟩ := List.forall_mem_append.mp wanted
    refine .bind (query_computes f here) fun b => ?_
    cases b
    · exact queryAny_computes rest others
    · exact .pure _

end

end Filter

section Exits

variable (n i : Nat)

def ExitRule.query : ExitRule → Asking Bool
  | takeProfit target price => do return (← Asking.value price i) ≥ target
  | stopLoss target price => do return (← Asking.value price i) ≤ target
  | signal filter => filter.query n i

def triggeredQuery : List ExitRule → Asking (Option ExitRule)
  | [] => return none
  | rule :: rest => ExceptT.mk do
    match ← (rule.query n i).run with
    | .ok true => return .ok (some rule)
    | .ok false => (triggeredQuery rest).run
    | .error e =>
      let others ← (triggeredQuery rest).run
      return match others with
        | .ok (some later) => .ok (some later)
        | _ => .error e

variable {n i} {P : Method → Prop}

theorem ExitRule.query_computes (rule : ExitRule) (wanted : ∀ m ∈ rule.methods, P m) :
    (rule.query n i).Computes n P fun t => rule.fires t i := by
  cases rule with
  | takeProfit target price =>
    exact .bind (.value (wanted price List.mem_cons_self) i) fun _ => .pure _
  | stopLoss target price =>
    exact .bind (.value (wanted price List.mem_cons_self) i) fun _ => .pure _
  | signal f => exact f.query_computes wanted

theorem triggered_computes (rules : List ExitRule)
    (wanted : ∀ m ∈ rules.flatMap ExitRule.methods, P m) :
    (triggeredQuery n i rules).Computes n P fun t => triggered t i rules := by
  induction rules with
  | nil => exact .pure _
  | cons rule rest ih =>
    rw [List.flatMap_cons] at wanted
    obtain ⟨here, others⟩ := List.forall_mem_append.mp wanted
    refine Query.Computes.bind (rule.query_computes here) fun verdict => ?_
    cases verdict with
    | ok fired =>
      cases fired with
      | true => exact ⟨_, .done _, fun t fires => by rw [triggered, fires]⟩
      | false => exact ⟨_, ih others, fun t stays => by rw [triggered, stays]⟩
    | error e =>
      -- The other rules are asked before the error counts.
      refine ⟨_, (ih others).map _, fun t fails => ?_⟩
      rcases later : triggered t i rest with e' | _ | found <;>
        simp only [triggered, fails, later]

end Exits

namespace Strategy

variable (s : Strategy) (n : Nat)

def enterQuery (b : Bar) : Asking (Option Position) := do
  if ← s.entry.query n b.index then
    return some ⟨b.index, b.time, ← Asking.value s.price b.index⟩
  else return none

def leaveQuery (b : Bar) : Asking (Option Float) := do
  match ← triggeredQuery n b.index s.exits with
  | some _ => return some (← Asking.value s.price b.index)
  | none => return none

def replayQuery : List Bar → Option Position → Query Journal
  | [], position => return ⟨[], position, 0⟩
  | b :: newer, none => do
    match ← (s.enterQuery n b).run with
    | .ok opened => replayQuery newer opened
    | .error _ =>
      let journal ← replayQuery newer none
      return { journal with skipped := journal.skipped + 1 }
  | b :: newer, some position => do
    match ← (s.leaveQuery n b).run with
    | .ok none => replayQuery newer (some position)
    | .ok (some price) =>
      let journal ← replayQuery newer none
      return { journal with trades := position.close b price :: journal.trades }
    | .error _ =>
      let journal ← replayQuery newer (some position)
      return { journal with skipped := journal.skipped + 1 }

variable {n} {P : Method → Prop}

theorem forall_methods :
    (∀ m ∈ s.methods, P m) ↔ (∀ m ∈ s.entry.methods, P m) ∧ P s.price ∧
      ∀ m ∈ s.exits.flatMap ExitRule.methods, P m := by
  simp only [methods, mem_distinct, List.forall_mem_append, List.forall_mem_cons]

theorem enter_computes (wanted : ∀ m ∈ s.methods, P m) (b : Bar) :
    (s.enterQuery n b).Computes n P fun t => s.enter t b := by
  obtain ⟨entry, price, -⟩ := s.forall_methods.mp wanted
  refine .bind (s.entry.query_computes entry) fun holds => ?_
  cases holds with
  | true => exact .bind (.value price b.index) fun _ => .pure _
  | false => exact .pure _

theorem leave_computes (wanted : ∀ m ∈ s.methods, P m) (b : Bar) :
    (s.leaveQuery n b).Computes n P fun t => s.leave t b := by
  obtain ⟨-, price, exits⟩ := s.forall_methods.mp wanted
  refine .bind (triggered_computes s.exits exits) fun rule => ?_
  cases rule with
  | some rule => exact .bind (.value price b.index) fun _ => .pure _
  | none => exact .pure _

theorem replay_computes (wanted : ∀ m ∈ s.methods, P m) (bars : List Bar)
    (position : Option Position) :
    (s.replayQuery n bars position).Computes n P fun t => s.replay t bars position := by
  induction bars generalizing position with
  | nil => exact .done _
  | cons b newer ih =>
    cases position with
    | none =>
      refine .bind (s.enter_computes wanted b) fun decision => ?_
      cases decision with
      | ok opened => exact ⟨_, ih opened, fun t decided => by rw [replay, decided]⟩
      | error e => exact ⟨_, (ih none).map _, fun t decided => by rw [replay, decided]⟩
    | some p =>
      refine .bind (s.leave_computes wanted b) fun decision => ?_
      rcases decision with e | _ | price
      · exact ⟨_, (ih (some p)).map _, fun t decided => by rw [replay, decided]⟩
      · exact ⟨_, ih (some p), fun t decided => by rw [replay, decided]⟩
      · exact ⟨_, (ih none).map _, fun t decided => by rw [replay, decided]⟩

end Strategy

namespace Store

/-- Reads what is held from its series and leaves the rest to a fall-back. -/
def tapeOr (store : Store) (a : Asset) (fallback : Method → Nat → Except RangeError Float) :
    Tape where
  length := a.length
  value m i := match find? store m with
    | some series => series.read i
    | none => fallback m i

theorem tapeOr_eq (store : Store) (a : Asset) :
    store.tapeOr a (fun m i => m.valueAt a i) = store.tape a := rfl

theorem tapeOr_held {store : Store} {a : Asset} {m : Method} {series : Series Float}
    (fallback : Method → Nat → Except RangeError Float) (held : find? store m = some series)
    (i : Nat) : (store.tapeOr a fallback).value m i = series.read i := by
  simp only [tapeOr, held]

end Store

namespace Asset

/-- A backtest whose store has no answer for a method that it does not hold: a run that asks for
one comes to nothing. -/
def backtestHeld (a : Asset) (s : Strategy) : Option (Except EvaluationFault Ledger) :=
  match Store.build a s.methods with
  | .ok store =>
    ((s.replayQuery a.length a.bars none).runHeld store).map fun journal =>
      .ok (.ofJournal a journal)
  | .error cause => some (.error ⟨a.symbol, cause⟩)

/-- A backtest whose store leaves the methods that it does not hold to a fall-back. -/
def backtestOr (fallback : Method → Nat → Except RangeError Float) (a : Asset) (s : Strategy) :
    Except EvaluationFault Ledger :=
  match Store.build a s.methods with
  | .ok store => .ok (.ofJournal a (s.replay (store.tapeOr a fallback) a.bars none))
  | .error cause => .error ⟨a.symbol, cause⟩

/-- The store of a backtest answers all of its reads. The methods of a strategy are its operands,
each once and in the order of their first places; a run, as a query, asks for none but these, and
the store holds them all. So a backtest comes to the same if there is no answer for other methods,
or any other answer. -/
theorem backtest_within_store (a : Asset) (s : Strategy) :
    ListsFirst s.OperandAt s.methods ∧
      (∀ t, t.length = a.length →
        (s.replayQuery a.length a.bars none).run t = s.replay t a.bars none) ∧
      (∃ store, Store.build a s.methods = .ok store ∧
        ∀ read ∈ (s.replayQuery a.length a.bars none).asked (store.tape a),
          read.1 ∈ s.methods ∧ (store.find? read.1).isSome) ∧
      a.backtestHeld s = some (a.backtest s) ∧
      ∀ fallback, a.backtestOr fallback s = a.backtest s := by
  obtain ⟨store, built, -⟩ := Store.build_eq_ok a s.methods
  have holds : ∀ m ∈ s.methods, (store.find? m).isSome := fun m listed =>
    (Store.isSome_find?_extend built m).mpr (.inr listed)
  have query := s.replay_computes (n := a.length) (fun m (listed : m ∈ s.methods) => listed)
    a.bars none
  have held : ∀ fallback, (s.replayQuery a.length a.bars none).runHeld store =
      some (s.replay (store.tapeOr a fallback) a.bars none) := by
    intro fallback
    rw [← query.run (store.tapeOr a fallback) rfl]
    refine query.asks.runHeld fun m listed => ?_
    obtain ⟨series, found⟩ := Option.isSome_iff_exists.mp (holds m listed)
    exact ⟨series, found, Store.tapeOr_held fallback found⟩
  have sealed := held fun m i => m.valueAt a i
  rw [Store.tapeOr_eq] at sealed
  refine ⟨s.methods_listsFirst, query.run, ⟨store, built, fun read member => ?_⟩, ?_, ?_⟩
  · have listed := query.asks.asked _ read member
    exact ⟨listed, holds _ listed⟩
  · simp only [backtestHeld, backtest, built, sealed, Option.map_some]
  · intro fallback
    have same := Option.some.inj ((held fallback).symm.trans sealed)
    simp only [backtestOr, backtest, built, same]

end Asset

end TradingRules
