import TradingRules.Proofs.Results
import TradingRules.Snapshot

/-!
# The logic of filters

A filter is true, false or without an answer, and its members are asked from left to right until one
of them decides. An error decides as a false member of a conjunction does, except that it is the
outcome itself. So the laws of the two-valued connectives that keep the order of the members hold
here as equations of outcomes, errors included; a change of the order can move an error in front of
the member that decided, but it cannot turn one truth value into the other.
-/

namespace TradingRules

namespace Filter

variable {t : Tape} {i : Nat}

/-- The first stretch of a conjunction decides it, or the rest does. -/
theorem evaluateAll_append (fs gs : List Filter) :
    evaluateAll t i (fs ++ gs) = (do
      if ← evaluateAll t i fs then evaluateAll t i gs else return false) := by
  induction fs with
  | nil => rfl
  | cons f rest ih =>
    rw [List.cons_append, evaluateAll, evaluateAll]
    cases f.evaluate t i with
    | error e => rfl
    | ok holds =>
      cases holds with
      | false => rfl
      | true => exact ih

/-- The negation of a conjunction and the disjunction of the negations ask the same members. -/
theorem evaluateAny_map_not (fs : List Filter) :
    evaluateAny t i (fs.map not) = do return !(← evaluateAll t i fs) := by
  induction fs with
  | nil => rfl
  | cons f rest ih =>
    rw [List.map_cons, evaluateAny, evaluateAll, evaluate]
    cases f.evaluate t i with
    | error e => rfl
    | ok holds =>
      cases holds with
      | false => rfl
      | true => exact ih

theorem evaluateAll_map_not (fs : List Filter) :
    evaluateAll t i (fs.map not) = do return !(← evaluateAny t i fs) := by
  induction fs with
  | nil => rfl
  | cons f rest ih =>
    rw [List.map_cons, evaluateAll, evaluateAny, evaluate]
    cases f.evaluate t i with
    | error e => rfl
    | ok holds =>
      cases holds with
      | false => exact ih
      | true => rfl

theorem not_bind_not (r : Except RangeError Bool) :
    (do return !(← (do return !(← r)))) = r := by
  cases r with
  | error e => rfl
  | ok b => cases b <;> rfl

/-- A disjunction is the conjunction of the negations, negated. -/
theorem evaluateAny_eq_not (fs : List Filter) :
    evaluateAny t i fs = do return !(← evaluateAll t i (fs.map not)) := by
  rw [evaluateAll_map_not, not_bind_not]

theorem evaluateAny_append (fs gs : List Filter) :
    evaluateAny t i (fs ++ gs) = (do
      if ← evaluateAny t i fs then return true else evaluateAny t i gs) := by
  rw [evaluateAny_eq_not fs, evaluateAny_eq_not gs, evaluateAny_eq_not, List.map_append,
    evaluateAll_append]
  cases evaluateAll t i (fs.map not) with
  | error e => rfl
  | ok holds => cases holds <;> rfl

/-- A nested conjunction is as good as its members in its place. -/
theorem evaluateAll_splice (before fs after : List Filter) :
    evaluateAll t i (before ++ all fs :: after) = evaluateAll t i (before ++ fs ++ after) := by
  rw [List.append_assoc, evaluateAll_append before, evaluateAll_append before,
    evaluateAll_append fs, evaluateAll, evaluate]

theorem evaluateAny_splice (before fs after : List Filter) :
    evaluateAny t i (before ++ any fs :: after) = evaluateAny t i (before ++ fs ++ after) := by
  rw [List.append_assoc, evaluateAny_append before, evaluateAny_append before,
    evaluateAny_append fs, evaluateAny, evaluate]

theorem evaluateAll_eq_true_iff {fs : List Filter} :
    evaluateAll t i fs = .ok true ↔ ∀ f ∈ fs, f.evaluate t i = .ok true := by
  induction fs with
  | nil => exact iff_of_true rfl (List.forall_mem_nil _)
  | cons f rest ih =>
    rw [List.forall_mem_cons, ← ih, evaluateAll]
    cases f.evaluate t i with
    | error e => simp
    | ok holds => cases holds <;> simp

/-- What makes a conjunction false is a false member, wherever it stands. -/
theorem exists_false_of_evaluateAll {fs : List Filter} (fails : evaluateAll t i fs = .ok false) :
    ∃ f ∈ fs, f.evaluate t i = .ok false := by
  induction fs with
  | nil => cases fails
  | cons f rest ih =>
    rw [evaluateAll] at fails
    obtain ⟨holds, first, later⟩ := bind_eq_ok_iff.mp fails
    cases holds with
    | false => exact ⟨f, List.mem_cons_self, first⟩
    | true =>
      obtain ⟨g, member, fails⟩ := ih later
      exact ⟨g, List.mem_cons_of_mem f member, fails⟩

/-- No true conjunction has the members of a false one. -/
theorem evaluateAll_not_true_and_false {fs gs : List Filter} (same : ∀ f, f ∈ fs ↔ f ∈ gs)
    (holds : evaluateAll t i fs = .ok true) : evaluateAll t i gs ≠ .ok false := by
  intro fails
  obtain ⟨f, member, unfulfilled⟩ := exists_false_of_evaluateAll fails
  have fulfilled := evaluateAll_eq_true_iff.mp holds f ((same f).mpr member)
  cases fulfilled.symm.trans unfulfilled

/-- Two conjunctions with the same members have one truth value, if both have any. -/
theorem evaluateAll_unique {fs gs : List Filter} (same : ∀ f, f ∈ fs ↔ f ∈ gs) {b c : Bool}
    (left : evaluateAll t i fs = .ok b) (right : evaluateAll t i gs = .ok c) : b = c := by
  cases b with
  | true =>
    cases c with
    | true => rfl
    | false => exact absurd right (evaluateAll_not_true_and_false same left)
  | false =>
    cases c with
    | true => exact absurd left (evaluateAll_not_true_and_false (fun f => (same f).symm) right)
    | false => rfl

theorem evaluateAny_unique {fs gs : List Filter} (same : ∀ f, f ∈ fs ↔ f ∈ gs) {b c : Bool}
    (left : evaluateAny t i fs = .ok b) (right : evaluateAny t i gs = .ok c) : b = c := by
  have negated : ∀ f, f ∈ fs.map not ↔ f ∈ gs.map not := by
    intro f
    simp only [List.mem_map, same]
  have left' : evaluateAll t i (fs.map not) = .ok !b := by rw [evaluateAll_map_not, left]; rfl
  have right' : evaluateAll t i (gs.map not) = .ok !c := by rw [evaluateAll_map_not, right]; rfl
  exact Bool.not_inj (evaluateAll_unique negated left' right')

/-- A filter with one place left open. -/
inductive Context where
  | hole
  | all (before : List Filter) (inner : Context) (after : List Filter)
  | any (before : List Filter) (inner : Context) (after : List Filter)
  | not (inner : Context)

/-- The filter with another one put into the open place. -/
def Context.fill : Context → Filter → Filter
  | hole, f => f
  | all before inner after, f => .all (before ++ inner.fill f :: after)
  | any before inner after, f => .any (before ++ inner.fill f :: after)
  | not inner, f => .not (inner.fill f)

/-- What is put into a filter matters by its outcome at the bar only. -/
theorem Context.evaluate_fill_congr {f g : Filter} (same : f.evaluate t i = g.evaluate t i)
    (c : Context) : (c.fill f).evaluate t i = (c.fill g).evaluate t i := by
  induction c with
  | hole => exact same
  | all before inner after ih =>
    simp only [fill, evaluate, evaluateAll_append, evaluateAll, ih]
  | any before inner after ih =>
    simp only [fill, evaluate, evaluateAny_append, evaluateAny, ih]
  | not inner ih =>
    simp only [fill, evaluate, ih]

end Filter

namespace Snapshot

/-- At every bar, with any store or none: a negated conjunction is the disjunction of the negations
and a negated disjunction their conjunction, in the same order; two negations are none; a
conjunction in a conjunction and a disjunction in a disjunction may be replaced by their members.
Each of these leaves the outcome as it is, be it a truth value or an error. Other orders of the
members of a conjunction or of a disjunction agree where both have an answer. -/
theorem holds_lawful (bar : Snapshot) :
    (∀ fs, bar.holds (.not (.all fs)) = bar.holds (.any (fs.map .not))) ∧
    (∀ fs, bar.holds (.not (.any fs)) = bar.holds (.all (fs.map .not))) ∧
    (∀ f, bar.holds (.not (.not f)) = bar.holds f) ∧
    (∀ before fs after, bar.holds (.all (before ++ .all fs :: after)) =
      bar.holds (.all (before ++ fs ++ after))) ∧
    (∀ before fs after, bar.holds (.any (before ++ .any fs :: after)) =
      bar.holds (.any (before ++ fs ++ after))) ∧
    (∀ fs gs b c, fs.Perm gs → bar.holds (.all fs) = .ok b → bar.holds (.all gs) = .ok c → b = c) ∧
    (∀ fs gs b c, fs.Perm gs → bar.holds (.any fs) = .ok b → bar.holds (.any gs) = .ok c →
      b = c) := by
  simp only [holds, Filter.evaluate]
  refine ⟨?_, ?_, ?_, ?_, ?_, ?_, ?_⟩
  · intro fs
    exact (Filter.evaluateAny_map_not fs).symm
  · intro fs
    exact (Filter.evaluateAll_map_not fs).symm
  · intro f
    exact Filter.not_bind_not _
  · exact Filter.evaluateAll_splice
  · exact Filter.evaluateAny_splice
  · intro fs gs b c reordered
    exact Filter.evaluateAll_unique fun f => reordered.mem_iff
  · intro fs gs b c reordered
    exact Filter.evaluateAny_unique fun f => reordered.mem_iff

/-- An average over two bars has no value at the only bar there is. Behind the false member it is
not asked for, whatever stands before that one. -/
theorem holds_lawful_missing_average :
    let only : Quote := ⟨⟨2024, 1, 1, 0, 0, 0, by decide, by decide, by decide, by decide,
      by decide, by decide⟩, 10.0, 12.0, 9.0, 11.0, 1000⟩
    let bar : Snapshot := ⟨.ofQuotes "TEST" [only], 0, [], by decide⟩
    let missing : Filter := .compare .gt (.sma 2 (.field .close)) (.value 10.0)
    bar.holds (.not (.all [.always true, missing])) = .error ⟨0, 0⟩ ∧
      bar.holds (.any [.not (.always true), .not missing]) = .error ⟨0, 0⟩ ∧
      ([Filter.always true, .always false, missing].Perm [.always false, missing, .always true]) ∧
      bar.holds (.all [.always true, .always false, missing]) = .ok false ∧
      ∃ c, bar.holds (.all [.always false, missing, .always true]) = .ok c ∧ false = c := by
  intro only bar missing
  obtain ⟨negated, -, -, -, -, reordered, -⟩ := bar.holds_lawful
  have unanswered : bar.holds (.not (.all [.always true, missing])) = .error ⟨0, 0⟩ := by rfl
  have moved : [Filter.always true, .always false, missing].Perm
      [.always false, missing, .always true] :=
    (List.Perm.swap _ _ _).trans ((List.Perm.swap _ _ _).cons _)
  have fails : bar.holds (.all [.always true, .always false, missing]) = .ok false := by decide
  have fails' : bar.holds (.all [.always false, missing, .always true]) = .ok false := by decide
  refine ⟨unanswered, ?_, moved, fails, false, fails', reordered _ _ _ _ moved fails fails'⟩
  exact (negated [.always true, missing]).symm.trans unanswered

end Snapshot

end TradingRules
