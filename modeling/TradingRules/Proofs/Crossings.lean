import TradingRules.Proofs.Numbers
import TradingRules.Proofs.Transparency

/-!
# Crossings

A crossing is meant to say that a relation holds at a bar and did not hold at the one before. What
is evaluated at the bar before is the opposite relation, and between numbers the two readings are
one. What is no number stands in no relation at all, so where an operand was none the relation did
not hold and its opposite did not either: the bar after it is no crossing. All four values are read,
and without one of them there is no answer, whatever the others say.
-/

namespace TradingRules

namespace Snapshot

variable {bar : Snapshot} {lhs rhs : Method} {relation now before : Float → Float → Bool}

/-- Both operands have values at a bar, and these are numbers. -/
def Numbers (bar : Snapshot) (lhs rhs : Method) : Prop :=
  ∃ x y, bar.value lhs = .ok x ∧ bar.value rhs = .ok y ∧ x.isNaN = false ∧ y.isNaN = false

/-- There is no bar before, or an operand has no value at a bar or at the one before. -/
def LacksRead (bar : Snapshot) (lhs rhs : Method) : Prop :=
  Fails bar.previous ∨ (Fails (bar.value lhs) ∨ Fails (bar.value rhs)) ∨
    ∃ yesterday, bar.previous = .ok yesterday ∧
      (Fails (yesterday.value lhs) ∨ Fails (yesterday.value rhs))

theorem related_eq_ok_iff {answer : Bool} :
    Filter.related bar.tape bar.index relation lhs rhs = .ok answer ↔
      ∃ x y, bar.value lhs = .ok x ∧ bar.value rhs = .ok y ∧ relation x y = answer := by
  change (do
    let x ← bar.value lhs
    let y ← bar.value rhs
    return relation x y) = .ok answer ↔ _
  simp only [bind_eq_ok_iff, pure_eq_ok, Except.ok.injEq, exists_and_left]

theorem related_fails_iff (relation : Float → Float → Bool) :
    Fails (Filter.related bar.tape bar.index relation lhs rhs) ↔
      Fails (bar.value lhs) ∨ Fails (bar.value rhs) := by
  change Fails (do
    let x ← bar.value lhs
    let y ← bar.value rhs
    return relation x y) ↔ _
  cases bar.value lhs with
  | error e => simp
  | ok x => cases bar.value rhs <;> simp

/-- A crossing holds where one relation does today and the other did yesterday. -/
theorem crossed_eq_true_iff :
    Filter.crossed bar.tape bar.index now before lhs rhs = .ok true ↔
      Filter.related bar.tape bar.index now lhs rhs = .ok true ∧
        ∃ yesterday, bar.previous = .ok yesterday ∧
          Filter.related yesterday.tape yesterday.index before lhs rhs = .ok true := by
  rw [crossed_eq]
  constructor
  · intro crossed
    obtain ⟨yesterday, present, crossed⟩ := bind_eq_ok_iff.mp crossed
    obtain ⟨today, holds, crossed⟩ := bind_eq_ok_iff.mp crossed
    obtain ⟨earlier, held, both⟩ := bind_eq_ok_iff.mp crossed
    obtain ⟨rfl, rfl⟩ := (Bool.and_eq_true_iff).mp (Except.ok.inj both)
    exact ⟨holds, yesterday, present, held⟩
  · rintro ⟨holds, yesterday, present, held⟩
    rw [present, ok_bind, holds, ok_bind, held]
    rfl

theorem crossed_fails_iff :
    Fails (Filter.crossed bar.tape bar.index now before lhs rhs) ↔ bar.LacksRead lhs rhs := by
  rw [crossed_eq, LacksRead, ← related_fails_iff now]
  simp only [← related_fails_iff before]
  cases bar.previous with
  | error e => simp
  | ok yesterday =>
    simp only [ok_bind, not_fails_ok, false_or, Except.ok.injEq, exists_eq_left']
    cases Filter.related bar.tape bar.index now lhs rhs with
    | error e => simp
    | ok today =>
      cases Filter.related yesterday.tape yesterday.index before lhs rhs <;> simp

/-- If one relation is the other's failure between numbers, it holds where the other fails and both
operands are numbers. -/
theorem related_opposite_iff {opposite : Float → Float → Bool}
    (opposed : ∀ x y, opposite x y = true ↔
      (x.isNaN = false ∧ y.isNaN = false) ∧ relation x y = false) :
    Filter.related bar.tape bar.index opposite lhs rhs = .ok true ↔
      Filter.related bar.tape bar.index relation lhs rhs = .ok false ∧ bar.Numbers lhs rhs := by
  rw [related_eq_ok_iff, related_eq_ok_iff]
  constructor
  · rintro ⟨x, y, left, right, holds⟩
    obtain ⟨numbers, fails⟩ := (opposed x y).mp holds
    exact ⟨⟨x, y, left, right, fails⟩, x, y, left, right, numbers⟩
  · rintro ⟨⟨x, y, left, right, fails⟩, x', y', left', right', numbers⟩
    obtain rfl := Except.ok.inj (left.symm.trans left')
    obtain rfl := Except.ok.inj (right.symm.trans right')
    exact ⟨x, y, left, right, (opposed x y).mpr ⟨numbers, fails⟩⟩

theorem not_above_iff (x y : Float) : decide (x ≤ y) = true ↔
    (x.isNaN = false ∧ y.isNaN = false) ∧ Comparison.holds .gt x y = false := by
  rw [Comparison.holds, decide_eq_true_iff, decide_eq_false_iff_not]
  exact le_iff_numbers_and_not_lt

theorem not_below_iff (x y : Float) : decide (x ≥ y) = true ↔
    (x.isNaN = false ∧ y.isNaN = false) ∧ Comparison.holds .lt x y = false := by
  rw [Comparison.holds, decide_eq_true_iff, decide_eq_false_iff_not]
  exact le_iff_numbers_and_not_lt.trans (and_congr and_comm Iff.rfl)

/-- At every bar, with any store or none, a crossing above holds just when the left operand is above
the right one and at the bar before was not, both being numbers there; a crossing below likewise.
Either has no answer just when one of the reads it makes is lacking, also where the relation does
not hold at the bar. -/
theorem crossing_iff (bar : Snapshot) (lhs rhs : Method) :
    (bar.holds (.crossAbove lhs rhs) = .ok true ↔
      bar.holds (.compare .gt lhs rhs) = .ok true ∧
        ∃ yesterday, bar.previous = .ok yesterday ∧
          yesterday.holds (.compare .gt lhs rhs) = .ok false ∧ yesterday.Numbers lhs rhs) ∧
    (bar.holds (.crossBelow lhs rhs) = .ok true ↔
      bar.holds (.compare .lt lhs rhs) = .ok true ∧
        ∃ yesterday, bar.previous = .ok yesterday ∧
          yesterday.holds (.compare .lt lhs rhs) = .ok false ∧ yesterday.Numbers lhs rhs) ∧
    (Fails (bar.holds (.crossAbove lhs rhs)) ↔ bar.LacksRead lhs rhs) ∧
    (Fails (bar.holds (.crossBelow lhs rhs)) ↔ bar.LacksRead lhs rhs) := by
  simp only [holds, Filter.evaluate]
  refine ⟨?_, ?_, crossed_fails_iff, crossed_fails_iff⟩
  · simp only [crossed_eq_true_iff, related_opposite_iff not_above_iff]
    rfl
  · simp only [crossed_eq_true_iff, related_opposite_iff not_below_iff]
    rfl

/-- A close that is no number is not above one, and the next close is two; yet that is no crossing
of one. -/
theorem crossing_after_no_number :
    ¬ ∀ (bar : Snapshot) (lhs rhs : Method),
      (bar.holds (.crossAbove lhs rhs) = .ok true ↔
        bar.holds (.compare .gt lhs rhs) = .ok true ∧
          ∃ yesterday, bar.previous = .ok yesterday ∧
            yesterday.holds (.compare .gt lhs rhs) = .ok false) := by
  intro claim
  let first : Quote := ⟨⟨2024, 1, 1, 0, 0, 0, by decide, by decide, by decide, by decide,
    by decide, by decide⟩, 1.0, 1.0, 1.0, 0.0 / 0.0, 1000⟩
  let second : Quote := ⟨⟨2024, 1, 2, 0, 0, 0, by decide, by decide, by decide, by decide,
    by decide, by decide⟩, 2.0, 2.0, 2.0, 2.0, 1000⟩
  let a : Asset := .ofQuotes "TEST" [first, second]
  let today : Snapshot := ⟨a, 0, [], by decide⟩
  let yesterday : Snapshot := ⟨a, 1, [], by decide⟩
  have above : today.holds (.compare .gt (.field .close) (.value 1.0)) = .ok true := by decide
  have before : today.previous = .ok yesterday := previous_of_lt (by decide)
  have not_above : yesterday.holds (.compare .gt (.field .close) (.value 1.0)) = .ok false := by
    decide
  have uncrossed : today.holds (.crossAbove (.field .close) (.value 1.0)) = .ok false := by decide
  cases uncrossed.symm.trans ((claim today _ _).mpr ⟨above, yesterday, before, not_above⟩)

end Snapshot

end TradingRules
