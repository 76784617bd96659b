import TradingRules.Method

/-!
# Filters

A filter is a condition on one bar: comparisons of methods, and their conjunctions, disjunctions and
negations. Whether two methods are equal is decided with a small tolerance, all other comparisons
are exact.
-/

namespace TradingRules

inductive Comparison where
  | eq
  | ne
  | gt
  | ge
  | lt
  | le
deriving DecidableEq, Repr

instance : Named Comparison where
  all := [.eq, .ne, .gt, .ge, .lt, .le]
  name
    | .eq => "eq"
    | .ne => "ne"
    | .gt => "gt"
    | .ge => "ge"
    | .lt => "lt"
    | .le => "le"

/-- Numbers closer than this count as equal. -/
def tolerance : Float := 1e-9

def Comparison.holds (op : Comparison) (lhs rhs : Float) : Bool :=
  match op with
  | .eq => (lhs - rhs).abs < tolerance
  | .ne => (lhs - rhs).abs ≥ tolerance
  | .gt => lhs > rhs
  | .ge => lhs ≥ rhs
  | .lt => lhs < rhs
  | .le => lhs ≤ rhs

inductive Filter where
  | always (b : Bool)
  | compare (op : Comparison) (lhs rhs : Method)
  | crossAbove (lhs rhs : Method)
  | crossBelow (lhs rhs : Method)
  | between (operand : Method) (lower upper : Float)
  | all (args : List Filter)
  | any (args : List Filter)
  | not (arg : Filter)

namespace Filter

mutual

def decideEq : (f g : Filter) → Decidable (f = g)
  | always b, always c => decidable_of_iff (b = c) (by simp)
  | compare op l r, compare op' l' r' => decidable_of_iff (op = op' ∧ l = l' ∧ r = r') (by simp)
  | crossAbove l r, crossAbove l' r' => decidable_of_iff (l = l' ∧ r = r') (by simp)
  | crossBelow l r, crossBelow l' r' => decidable_of_iff (l = l' ∧ r = r') (by simp)
  | between m l u, between m' l' u' => decidable_of_iff (m = m' ∧ l = l' ∧ u = u') (by simp)
  | all fs, all gs => @decidable_of_iff _ (fs = gs) (by simp) (decideEqList fs gs)
  | any fs, any gs => @decidable_of_iff _ (fs = gs) (by simp) (decideEqList fs gs)
  | not f, not g => @decidable_of_iff _ (f = g) (by simp) (decideEq f g)
  | always _, compare .. | always _, crossAbove .. | always _, crossBelow ..
  | always _, between .. | always _, all _ | always _, any _ | always _, not _
  | compare .., always _ | compare .., crossAbove .. | compare .., crossBelow ..
  | compare .., between .. | compare .., all _ | compare .., any _ | compare .., not _
  | crossAbove .., always _ | crossAbove .., compare .. | crossAbove .., crossBelow ..
  | crossAbove .., between .. | crossAbove .., all _ | crossAbove .., any _ | crossAbove .., not _
  | crossBelow .., always _ | crossBelow .., compare .. | crossBelow .., crossAbove ..
  | crossBelow .., between .. | crossBelow .., all _ | crossBelow .., any _ | crossBelow .., not _
  | between .., always _ | between .., compare .. | between .., crossAbove ..
  | between .., crossBelow .. | between .., all _ | between .., any _ | between .., not _
  | all _, always _ | all _, compare .. | all _, crossAbove .. | all _, crossBelow ..
  | all _, between .. | all _, any _ | all _, not _
  | any _, always _ | any _, compare .. | any _, crossAbove .. | any _, crossBelow ..
  | any _, between .. | any _, all _ | any _, not _
  | not _, always _ | not _, compare .. | not _, crossAbove .. | not _, crossBelow ..
  | not _, between .. | not _, all _ | not _, any _ => .isFalse (by simp)

def decideEqList : (fs gs : List Filter) → Decidable (fs = gs)
  | [], [] => .isTrue rfl
  | f :: fs, g :: gs =>
    @decidable_of_iff _ (f = g ∧ fs = gs) (by simp)
      (@instDecidableAnd _ _ (decideEq f g) (decideEqList fs gs))
  | [], _ :: _ | _ :: _, [] => .isFalse (by simp)

end

instance : DecidableEq Filter := decideEq

mutual

/-- Every operand, in the order of a visit, as often as it occurs. -/
def methods : Filter → List Method
  | always _ => []
  | compare _ lhs rhs => [lhs, rhs]
  | crossAbove lhs rhs => [lhs, rhs]
  | crossBelow lhs rhs => [lhs, rhs]
  | between operand _ _ => [operand]
  | all args => methodsOf args
  | any args => methodsOf args
  | not arg => arg.methods

def methodsOf : List Filter → List Method
  | [] => []
  | f :: rest => f.methods ++ methodsOf rest

end

mutual

def text : Filter → String
  | always b => if b then "true" else "false"
  | compare op lhs rhs => name op ++ "(" ++ lhs.text ++ ", " ++ rhs.text ++ ")"
  | crossAbove lhs rhs => "cross_above(" ++ lhs.text ++ ", " ++ rhs.text ++ ")"
  | crossBelow lhs rhs => "cross_below(" ++ lhs.text ++ ", " ++ rhs.text ++ ")"
  | between operand lower upper =>
    "between(" ++ operand.text ++ ", " ++ Decimal.shortestText lower ++ ", " ++
      Decimal.shortestText upper ++ ")"
  | all args => "and(" ++ ", ".intercalate (texts args) ++ ")"
  | any args => "or(" ++ ", ".intercalate (texts args) ++ ")"
  | not arg => "not(" ++ arg.text ++ ")"

def texts : List Filter → List String
  | [] => []
  | f :: rest => f.text :: texts rest

end

end Filter

end TradingRules
