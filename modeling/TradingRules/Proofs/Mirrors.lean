import TradingRules.Proofs.Differences
import TradingRules.Proofs.Results
import TradingRules.Snapshot

/-!
# Mirrored filters

Every comparison can be read from its other side: what is above is what the other is below. Reading
all comparisons and crossings of a filter that way exchanges the operands, so another one of them
may be the first that is missing, and with it the error. Whether there is an answer and which one
does not change.
-/

namespace TradingRules

/-- The comparison as the right operand sees it. -/
def Comparison.mirror : Comparison → Comparison
  | eq => eq
  | ne => ne
  | gt => lt
  | ge => le
  | lt => gt
  | le => ge

@[simp] theorem Comparison.mirror_mirror (op : Comparison) : op.mirror.mirror = op := by
  cases op <;> rfl

theorem Comparison.holds_mirror (op : Comparison) (x y : Float) :
    op.mirror.holds y x = op.holds x y := by
  cases op with
  | eq =>
    simp only [mirror, holds]
    rw [float_abs_sub_comm]
  | ne =>
    simp only [mirror, holds]
    rw [float_abs_sub_comm]
  | gt => rfl
  | ge => rfl
  | lt => rfl
  | le => rfl

namespace Filter

mutual

/-- The filter with every comparison and every crossing read from its other side. -/
def mirror : Filter → Filter
  | always b => always b
  | compare op lhs rhs => compare op.mirror rhs lhs
  | crossAbove lhs rhs => crossBelow rhs lhs
  | crossBelow lhs rhs => crossAbove rhs lhs
  | between operand lower upper => between operand lower upper
  | all args => all (mirrors args)
  | any args => any (mirrors args)
  | not arg => not arg.mirror

def mirrors : List Filter → List Filter
  | [] => []
  | f :: rest => f.mirror :: mirrors rest

end

mutual

theorem mirror_mirror : (f : Filter) → f.mirror.mirror = f
  | always _ | crossAbove _ _ | crossBelow _ _ | between _ _ _ => rfl
  | compare op lhs rhs => by rw [mirror, mirror, op.mirror_mirror]
  | all args => by rw [mirror, mirror, mirrors_mirrors args]
  | any args => by rw [mirror, mirror, mirrors_mirrors args]
  | not arg => by rw [mirror, mirror, arg.mirror_mirror]

theorem mirrors_mirrors : (fs : List Filter) → mirrors (mirrors fs) = fs
  | [] => rfl
  | f :: rest => by rw [mirrors, mirrors, f.mirror_mirror, mirrors_mirrors rest]

end

variable {t : Tape}

/-- The operands are read in the other order, and each of them may be the one that is missing. -/
theorem related_mirror {relation mirrored : Float → Float → Bool}
    (mirrors : ∀ x y, mirrored y x = relation x y) (i : Nat) (lhs rhs : Method) :
    (related t i mirrored rhs lhs).toOption = (related t i relation lhs rhs).toOption := by
  rw [related, related]
  cases t.value lhs i with
  | error e => cases t.value rhs i <;> rfl
  | ok x =>
    cases t.value rhs i with
    | error e => rfl
    | ok y => exact congrArg some (mirrors x y)

theorem crossed_mirror {now before now' before' : Float → Float → Bool}
    (today : ∀ x y, now' y x = now x y) (yesterday : ∀ x y, before' y x = before x y) (i : Nat)
    (lhs rhs : Method) :
    (crossed t i now' before' rhs lhs).toOption = (crossed t i now before lhs rhs).toOption := by
  simp only [crossed, toOption_bind, related_mirror today, related_mirror yesterday]

mutual

theorem evaluate_mirror (i : Nat) :
    (f : Filter) → (f.mirror.evaluate t i).toOption = (f.evaluate t i).toOption
  | always b => rfl
  | compare op lhs rhs => related_mirror op.holds_mirror i lhs rhs
  | crossAbove lhs rhs => crossed_mirror (fun _ _ => rfl) (fun _ _ => rfl) i lhs rhs
  | crossBelow lhs rhs => crossed_mirror (fun _ _ => rfl) (fun _ _ => rfl) i lhs rhs
  | between operand lower upper => rfl
  | all args => by
    rw [mirror, evaluate, evaluate]
    exact evaluateAll_mirrors i args
  | any args => by
    rw [mirror, evaluate, evaluate]
    exact evaluateAny_mirrors i args
  | not arg => by
    simp only [mirror, evaluate, toOption_bind, evaluate_mirror i arg]

theorem evaluateAll_mirrors (i : Nat) : (fs : List Filter) →
    (evaluateAll t i (mirrors fs)).toOption = (evaluateAll t i fs).toOption
  | [] => rfl
  | f :: rest => by
    rw [mirrors, evaluateAll, evaluateAll]
    exact toOption_branch (evaluate_mirror i f) (evaluateAll_mirrors i rest) rfl

theorem evaluateAny_mirrors (i : Nat) : (fs : List Filter) →
    (evaluateAny t i (mirrors fs)).toOption = (evaluateAny t i fs).toOption
  | [] => rfl
  | f :: rest => by
    rw [mirrors, evaluateAny, evaluateAny]
    exact toOption_branch (evaluate_mirror i f) rfl (evaluateAny_mirrors i rest)

end

end Filter

/-- At every bar, with any store or none, a filter and its mirror image have the same truth value or
both none. -/
theorem Snapshot.mirrored_answers_alike (bar : Snapshot) (f : Filter) :
    (Fails (bar.holds f) ∧ Fails (bar.holds f.mirror)) ∨
      ∃ b, bar.holds f = .ok b ∧ bar.holds f.mirror = .ok b := by
  have same : (bar.holds f.mirror).toOption = (bar.holds f).toOption :=
    Filter.evaluate_mirror bar.index f
  cases answer : bar.holds f with
  | error e =>
    rw [answer] at same
    exact .inl ⟨fails_error e, toOption_eq_none_iff.mp same⟩
  | ok b =>
    rw [answer] at same
    exact .inr ⟨b, rfl, toOption_eq_some_iff.mp same⟩

end TradingRules
