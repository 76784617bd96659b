import TradingRules.Proofs.Crossings
import TradingRules.Proofs.Differences
import TradingRules.Proofs.FilterLogic

/-!
# Equal within a tolerance

To be equal is to have a small distance and to be unequal is to have a large one. Each of the two is
tested on its own, so they are opposites just where there is a distance. Two operands that are the
same infinity, or of which one is no number, are neither equal nor unequal: there a filter may not
say `ne` in place of the negation of `eq`, and everywhere else it may.
-/

namespace TradingRules

namespace Comparison

theorem tolerance_isNumber : tolerance.isNaN = false := by decide

theorem holds_of_indistinct {x y : Float} (indistinct : Indistinct x y) :
    eq.holds x y = false ∧ ne.holds x y = false := by
  have undefined : (x - y).abs.isNaN = true := by
    rw [isNaN_float_abs]
    exact isNaN_sub_iff.mpr indistinct
  constructor
  · exact decide_eq_false (not_lt_of_isNaN undefined tolerance).1
  · exact decide_eq_false (not_le_of_isNaN undefined tolerance).2

theorem holds_ne_of_distinct {x y : Float} (distinct : ¬ Indistinct x y) :
    ne.holds x y = !eq.holds x y := by
  have number : (x - y).abs.isNaN = false := by
    rw [isNaN_float_abs, ← Bool.not_eq_true]
    exact fun undefined => distinct (isNaN_sub_iff.mp undefined)
  have opposed : (x - y).abs ≥ tolerance ↔ ¬ (x - y).abs < tolerance :=
    le_iff_not_lt tolerance_isNumber number
  simp only [holds, decide_eq_decide.mpr opposed, decide_not]

/-- One is the negation of the other just where there is a distance. -/
theorem holds_ne_iff_distinct {x y : Float} :
    (!eq.holds x y) = ne.holds x y ↔ ¬ Indistinct x y := by
  constructor
  · intro opposed indistinct
    obtain ⟨unequal, equal⟩ := holds_of_indistinct indistinct
    rw [unequal, equal] at opposed
    cases opposed
  · intro distinct
    exact (holds_ne_of_distinct distinct).symm

end Comparison

namespace Snapshot

variable {bar : Snapshot} {lhs rhs : Method}

/-- Where both operands have values, these have a distance. -/
def Distinguishes (bar : Snapshot) (lhs rhs : Method) : Prop :=
  ∀ x y, bar.value lhs = .ok x → bar.value rhs = .ok y → ¬ Indistinct x y

/-- All comparisons read the same two values, or fail alike. -/
theorem compare_cases (bar : Snapshot) (lhs rhs : Method) :
    (∃ x y, bar.value lhs = .ok x ∧ bar.value rhs = .ok y ∧
      ∀ op : Comparison, bar.holds (.compare op lhs rhs) = .ok (op.holds x y)) ∨
    ∃ e, (Fails (bar.value lhs) ∨ Fails (bar.value rhs)) ∧
      ∀ op : Comparison, bar.holds (.compare op lhs rhs) = .error e := by
  have read : ∀ op : Comparison, bar.holds (.compare op lhs rhs) = (do
      let x ← bar.value lhs
      let y ← bar.value rhs
      return op.holds x y) := fun op => rfl
  simp only [read]
  cases bar.value lhs with
  | error e => exact .inr ⟨e, .inl (fails_error e), fun op => rfl⟩
  | ok x =>
    cases bar.value rhs with
    | error e => exact .inr ⟨e, .inr (fails_error e), fun op => rfl⟩
    | ok y => exact .inl ⟨x, y, rfl, rfl, fun op => rfl⟩

theorem holds_not (f : Filter) :
    bar.holds (.not f) = do return !(← bar.holds f) := by
  simp only [holds, Filter.evaluate]

theorem not_equal_eq_unequal_iff :
    bar.holds (.not (.compare .eq lhs rhs)) = bar.holds (.compare .ne lhs rhs) ↔
      bar.Distinguishes lhs rhs := by
  rw [holds_not]
  rcases bar.compare_cases lhs rhs with ⟨x, y, left, right, outcome⟩ | ⟨e, missing, outcome⟩
  · rw [outcome, outcome, ok_bind, pure_eq_ok, Except.ok.injEq, Comparison.holds_ne_iff_distinct]
    constructor
    · intro distinct x' y' left' right'
      obtain rfl := Except.ok.inj (left.symm.trans left')
      obtain rfl := Except.ok.inj (right.symm.trans right')
      exact distinct
    · intro distinguishes
      exact distinguishes x y left right
  · rw [outcome, outcome, error_bind]
    refine iff_of_true rfl fun x y left right => ?_
    rcases missing with missing | missing
    · rw [left] at missing
      exact absurd missing (not_fails_ok x)
    · rw [right] at missing
      exact absurd missing (not_fails_ok y)

/-- At every bar, with any store or none, equal and unequal fail together and alike. On values with
a distance one of them holds and the other does not; on values without one neither holds. So the
negation of the one may stand for the other in every filter, and in every exit rule by a filter,
just at the bars where the operands have no values or have a distance. -/
theorem equal_and_unequal (bar : Snapshot) (lhs rhs : Method) :
    (∀ e, bar.holds (.compare .eq lhs rhs) = .error e ↔
      bar.holds (.compare .ne lhs rhs) = .error e) ∧
    (∀ x y, bar.value lhs = .ok x → bar.value rhs = .ok y →
      if Indistinct x y then
        bar.holds (.compare .eq lhs rhs) = .ok false ∧ bar.holds (.compare .ne lhs rhs) = .ok false
      else ∃ b, bar.holds (.compare .eq lhs rhs) = .ok b ∧
        bar.holds (.compare .ne lhs rhs) = .ok !b) ∧
    (bar.Distinguishes lhs rhs ↔ ∀ c : Filter.Context,
      bar.holds (c.fill (.not (.compare .eq lhs rhs))) =
        bar.holds (c.fill (.compare .ne lhs rhs)) ∧
      bar.fires (.signal (c.fill (.not (.compare .eq lhs rhs)))) =
        bar.fires (.signal (c.fill (.compare .ne lhs rhs)))) := by
  refine ⟨?_, ?_, ?_⟩
  · intro e
    rcases bar.compare_cases lhs rhs with ⟨x, y, -, -, outcome⟩ | ⟨e', -, outcome⟩
    · rw [outcome, outcome]
      exact iff_of_false (fun failed => nomatch failed) (fun failed => nomatch failed)
    · rw [outcome, outcome]
  · intro x y left right
    have outcome : ∀ op : Comparison, bar.holds (.compare op lhs rhs) = .ok (op.holds x y) := by
      intro op
      exact related_eq_ok_iff.mpr ⟨x, y, left, right, rfl⟩
    rw [outcome, outcome]
    by_cases indistinct : Indistinct x y
    · obtain ⟨unequal, equal⟩ := Comparison.holds_of_indistinct indistinct
      rw [if_pos indistinct, unequal, equal]
      exact ⟨rfl, rfl⟩
    · rw [if_neg indistinct, Comparison.holds_ne_of_distinct indistinct]
      exact ⟨_, rfl, rfl⟩
  · rw [← not_equal_eq_unequal_iff]
    constructor
    · intro same c
      have filled := c.evaluate_fill_congr same
      exact ⟨filled, filled⟩
    · intro interchangeable
      exact (interchangeable .hole).1

/-- The bar opens a little below its close, and its high is infinite: the opening and the close are
equal, the high is not even equal to itself, nor unequal. -/
theorem equal_and_unequal_infinite_high :
    let only : Quote := ⟨⟨2024, 1, 1, 0, 0, 0, by decide, by decide, by decide, by decide,
      by decide, by decide⟩, 2.0, 1.0 / 0.0, 2.0, 2.0000000001, 1000⟩
    let bar : Snapshot := ⟨.ofQuotes "TEST" [only], 0, [], by decide⟩
    bar.value (.field .opening) = .ok 2.0 ∧ bar.value (.field .close) = .ok 2.0000000001 ∧
      (∃ b, bar.holds (.compare .eq (.field .opening) (.field .close)) = .ok b ∧
        bar.holds (.compare .ne (.field .opening) (.field .close)) = .ok !b) ∧
      bar.value (.field .high) = .ok (1.0 / 0.0) ∧
      bar.holds (.compare .eq (.field .high) (.field .high)) = .ok false ∧
      bar.holds (.compare .ne (.field .high) (.field .high)) = .ok false := by
  intro only bar
  have opening : bar.value (.field .opening) = .ok 2.0 := by rfl
  have close : bar.value (.field .close) = .ok 2.0000000001 := by rfl
  have high : bar.value (.field .high) = .ok (1.0 / 0.0) := by rfl
  obtain ⟨-, near, -⟩ := bar.equal_and_unequal (.field .opening) (.field .close)
  obtain ⟨-, far, -⟩ := bar.equal_and_unequal (.field .high) (.field .high)
  have apart := near _ _ opening close
  have together := far _ _ high high
  rw [if_neg (by decide)] at apart
  rw [if_pos (by decide)] at together
  exact ⟨opening, close, apart, high, together⟩

/-- A close that is no number is neither equal to one nor unequal to it. -/
theorem neither_equal_nor_unequal :
    ¬ ∀ (bar : Snapshot) (lhs rhs : Method) (b : Bool),
      bar.holds (.compare .eq lhs rhs) = .ok b → bar.holds (.compare .ne lhs rhs) = .ok !b := by
  intro claim
  let only : Quote := ⟨⟨2024, 1, 1, 0, 0, 0, by decide, by decide, by decide, by decide,
    by decide, by decide⟩, 1.0, 1.0, 1.0, 0.0 / 0.0, 1000⟩
  let bar : Snapshot := ⟨.ofQuotes "TEST" [only], 0, [], by decide⟩
  have unequal : bar.holds (.compare .eq (.field .close) (.value 1.0)) = .ok false := by decide
  have equal : bar.holds (.compare .ne (.field .close) (.value 1.0)) = .ok false := by decide
  cases equal.symm.trans (claim bar _ _ false unequal)

end Snapshot

end TradingRules
