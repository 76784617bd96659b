import TradingRules.Proofs.Replay

/-!
# Bars seen through a store

A bar that carries a store answers as the bar without it does. The store goes along when a rule
looks at the bar before, so a crossing may read some of its operands from held series and compute
others, today's and yesterday's alike; neither its value nor its error tells which.
-/

namespace TradingRules

namespace Snapshot

variable (bar : Snapshot) (store : Store)

theorem holds_withStore (f : Filter) :
    (bar.withStore store).holds f = f.evaluate (store.tape bar.asset) bar.index := rfl

theorem fires_withStore (rule : ExitRule) :
    (bar.withStore store).fires rule = rule.fires (store.tape bar.asset) bar.index := rfl

theorem triggered_withStore (rules : List ExitRule) :
    (bar.withStore store).triggered rules =
      TradingRules.triggered (store.tape bar.asset) bar.index rules := rfl

theorem previous_of_lt {bar : Snapshot} (inside : bar.index + 1 < bar.asset.length) :
    bar.previous = .ok ⟨bar.asset, bar.index + 1, bar.store, inside⟩ := by
  rw [previous, bar.asset.snapshot_of_lt inside]
  rfl

theorem previous_of_le {bar : Snapshot} (oldest : bar.asset.length ≤ bar.index + 1) :
    bar.previous = .error ⟨bar.index + 1, bar.asset.length⟩ := by
  rw [previous, Asset.snapshot, dif_neg (Nat.not_lt_of_le oldest)]
  rfl

/-- A crossing is decided between a bar and the one before it, read through the store of both. -/
theorem crossed_eq (now before : Float → Float → Bool) (lhs rhs : Method) :
    Filter.crossed bar.tape bar.index now before lhs rhs = do
      let yesterday ← bar.previous
      let today ← Filter.related bar.tape bar.index now lhs rhs
      let earlier ← Filter.related yesterday.tape yesterday.index before lhs rhs
      return today && earlier := by
  have length : bar.tape.length = bar.asset.length := rfl
  rw [Filter.crossed, length]
  by_cases inside : bar.index + 1 < bar.asset.length
  · rw [RangeError.check_eq_ok_iff.mpr inside, previous_of_lt inside]
    rfl
  · have oldest := Nat.le_of_not_lt inside
    rw [RangeError.check_of_le oldest, previous_of_le oldest]
    rfl

end Snapshot

namespace Store

/-- The methods of any list have a store over an asset, however often they occur in it and whatever
rules they belong to; it holds their series and no others. At every bar of the asset all filters,
all exit rules and the exit rules of all strategies together answer through the store as they do
without it: the same truth value, the same rule or the same error. -/
theorem build_transparent (a : Asset) (methods : List Method) :
    ∃ store, Store.build a methods = .ok store ∧
      (∀ m series, find? store m = some series ↔ m ∈ methods ∧ m.evaluate a = .ok series) ∧
      ∀ i, i < a.length → ∃ bar, a.snapshot i = .ok bar ∧
        (∀ f : Filter, (bar.withStore store).holds f = bar.holds f) ∧
        (∀ rule : ExitRule, (bar.withStore store).fires rule = bar.fires rule) ∧
        ∀ s : Strategy, (bar.withStore store).triggered s.exits = bar.triggered s.exits := by
  obtain ⟨store, built, same⟩ := Store.build_eq_ok a methods
  refine ⟨store, built, find?_build built, ?_⟩
  intro i inside
  have plain : (⟨a, i, [], inside⟩ : Snapshot).tape = a.tape := Store.tape_nil a
  refine ⟨⟨a, i, [], inside⟩, a.snapshot_of_lt inside, ?_, ?_, ?_⟩
  · intro f
    rw [Snapshot.holds_withStore, same, ← plain]
    rfl
  · intro rule
    rw [Snapshot.fires_withStore, same, ← plain]
    rfl
  · intro s
    rw [Snapshot.triggered_withStore, same, ← plain]
    rfl

/-- Three closes, 15, 10 and 12, and a store that holds their average over two bars but not the
closes themselves. The newest close has crossed above its average; whether the one before had done
so the average is a bar too short to tell, read from the store or not. -/
theorem build_transparent_crossing :
    let day (n : Fin 31) (close : Float) : Quote := ⟨⟨2024, 1, n + 1, 0, 0, 0, by decide, by decide,
      ⟨Nat.succ_pos n, n.isLt⟩, by decide, by decide, by decide⟩, close, close, close, close, 1000⟩
    let a : Asset := .ofQuotes "TEST" [day 0 15.0, day 1 10.0, day 2 12.0]
    let average : Method := .sma 2 (.field .close)
    let rises : Filter := .crossAbove (.field .close) average
    ∃ store, Store.build a [average, average, .atr 1] = .ok store ∧
      (∃ held, find? store average = some held ∧ held.toList = .ok [11.0, 12.5]) ∧
      find? store (.field .close) = none ∧
      (∃ bar, a.snapshot 0 = .ok bar ∧ (bar.withStore store).holds rises = .ok true) ∧
      ∃ bar, a.snapshot 1 = .ok bar ∧ (bar.withStore store).holds rises = .error ⟨2, 2⟩ := by
  intro day a average rises
  obtain ⟨store, built, holds, same⟩ := build_transparent a [average, average, .atr 1]
  have computed : ∃ series, average.evaluate a = .ok series ∧ series.toList = .ok [11.0, 12.5] :=
    ⟨_, average.evaluate_eq a, by decide +kernel⟩
  obtain ⟨series, evaluated, values⟩ := computed
  have not_held : find? store (.field .close) = none := by
    rw [Option.eq_none_iff_forall_ne_some]
    intro series found
    simpa [average] using ((holds _ series).mp found).1
  obtain ⟨newest, is_newest, answers, -⟩ := same 0 (by decide)
  obtain ⟨middle, is_middle, middle_answers, -⟩ := same 1 (by decide)
  obtain rfl := Except.ok.inj ((a.snapshot_of_lt (by decide)).symm.trans is_newest)
  obtain rfl := Except.ok.inj ((a.snapshot_of_lt (by decide)).symm.trans is_middle)
  refine ⟨store, built, ⟨series, (holds _ _).mpr ⟨.head _, evaluated⟩, values⟩, not_held,
    ⟨_, is_newest, ?_⟩, _, is_middle, ?_⟩
  · rw [answers]
    decide +kernel
  · rw [middle_answers]
    decide +kernel

end Store

end TradingRules
