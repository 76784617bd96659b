import TradingRules.Backtest
import TradingRules.Proofs.Methods

/-!
# Stores

A store only remembers: whatever series it holds is the one the method has over the asset anyway.
A rule therefore reads the same values and the same errors through a store as from the asset itself,
and building one never fails.
-/

namespace TradingRules

namespace Store

/-- Every series held is the series of its method over the asset. -/
def Faithful (a : Asset) (store : Store) : Prop :=
  ∀ m series, find? store m = some series → m.evaluate a = .ok series

theorem faithful_nil (a : Asset) : Faithful a [] := by
  intro m series found
  cases found

theorem Faithful.cons {a : Asset} {store : Store} (faithful : Faithful a store) {m : Method}
    {series : Series Float} (computed : m.evaluate a = .ok series) :
    Faithful a ((m, series) :: store) := by
  intro wanted answer found
  by_cases same : m = wanted
  · subst same
    simp only [find?, if_true, Option.some.injEq] at found
    rw [computed, found]
  · simp only [find?, if_neg same] at found
    exact faithful wanted answer found

theorem Faithful.extend {a : Asset} {store : Store} (faithful : Faithful a store)
    (methods : List Method) :
    ∃ larger, Store.extend a store methods = .ok larger ∧ Faithful a larger := by
  induction methods generalizing store with
  | nil => exact ⟨store, rfl, faithful⟩
  | cons m rest ih =>
    cases held : find? store m with
    | some series =>
      obtain ⟨larger, extended, larger_faithful⟩ := ih faithful
      exact ⟨larger, by simpa only [Store.extend, held] using extended, larger_faithful⟩
    | none =>
      have computed := m.evaluate_eq a
      obtain ⟨larger, extended, larger_faithful⟩ := ih (faithful.cons computed)
      refine ⟨larger, ?_, larger_faithful⟩
      simpa only [Store.extend, held, computed, ok_bind] using extended

/-- What is held after methods were added: what was held before, and the methods. -/
theorem isSome_find?_extend {a : Asset} {store larger : Store} {methods : List Method}
    (extended : extend a store methods = .ok larger) (m : Method) :
    (find? larger m).isSome ↔ (find? store m).isSome ∨ m ∈ methods := by
  induction methods generalizing store with
  | nil =>
    obtain rfl := Except.ok.inj extended
    simp only [List.not_mem_nil, or_false]
  | cons x rest ih =>
    cases held : find? store x with
    | some series =>
      rw [extend, held] at extended
      have held_already : m = x → (find? store m).isSome := by
        rintro rfl
        rw [held, Option.isSome_some]
      rw [ih extended, List.mem_cons, ← or_assoc, or_iff_left_of_imp held_already]
    | none =>
      simp only [extend, held] at extended
      obtain ⟨series, -, extended⟩ := bind_eq_ok_iff.mp extended
      rw [ih extended, List.mem_cons]
      by_cases same : x = m
      · rw [find?, if_pos same]
        simp only [Option.isSome_some, same, true_or, or_true]
      · rw [find?, if_neg same]
        simp only [Ne.symm same, false_or]

/-- A store holds the methods it was built from and no other, each with its series. -/
theorem find?_build {a : Asset} {methods : List Method} {store : Store}
    (built : build a methods = .ok store) (m : Method) (series : Series Float) :
    find? store m = some series ↔ m ∈ methods ∧ m.evaluate a = .ok series := by
  obtain ⟨same, built_again, faithful⟩ := (faithful_nil a).extend methods
  obtain rfl : same = store := Except.ok.inj (built_again.symm.trans built)
  have held := isSome_find?_extend built m
  rw [find?, Option.isSome_none] at held
  simp only [Bool.false_eq_true, false_or] at held
  constructor
  · intro found
    exact ⟨held.mp (by rw [found]; rfl), faithful m series found⟩
  · rintro ⟨listed, computed⟩
    obtain ⟨answer, found⟩ := Option.isSome_iff_exists.mp (held.mpr listed)
    have agrees := faithful m answer found
    rw [found, Except.ok.inj (computed.symm.trans agrees)]

/-- Reading through a faithful store is reading the asset. -/
theorem Faithful.tape_eq {a : Asset} {store : Store} (faithful : Faithful a store) :
    store.tape a = a.tape := by
  have reads : (store.tape a).value = a.tape.value := by
    funext m i
    cases held : find? store m with
    | none => simp only [Store.tape, held, Asset.tape]
    | some series =>
      have same : Series.ofList (m.values a.history) = series :=
        Except.ok.inj ((m.evaluate_eq a).symm.trans (faithful m series held))
      simp only [Store.tape, held, Asset.tape, Method.valueAt_eq, same]
  simp only [Store.tape, Asset.tape] at reads ⊢
  rw [reads]

/-- The methods of a strategy always have a store, and it reads as the asset does. -/
theorem build_eq_ok (a : Asset) (methods : List Method) :
    ∃ store, build a methods = .ok store ∧ store.tape a = a.tape := by
  obtain ⟨store, built, faithful⟩ := (faithful_nil a).extend methods
  exact ⟨store, built, faithful.tape_eq⟩

end Store

/-- A backtest never fails, and its journal is that of a replay over the asset without a store. -/
theorem Asset.backtest_eq (a : Asset) (s : Strategy) :
    a.backtest s = .ok (.ofJournal a (s.replay a.tape a.bars none)) := by
  obtain ⟨store, built, same⟩ := Store.build_eq_ok a s.methods
  simp only [backtest, built, same]

end TradingRules
