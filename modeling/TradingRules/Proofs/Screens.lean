import TradingRules.Proofs.Replay
import TradingRules.Screen

/-!
# Classes of a screen

A screen judges each asset by the bar that is its newest one, read without a store. Each of its
three classes is the list of the assets with one kind of answer, in the order they came in, so it
does not matter which other assets are screened along with one.
-/

namespace TradingRules

namespace Asset

variable {a : Asset} {f : Filter}

/-- The answer of an asset is what its newest bar says, if there is one. -/
theorem latest_eq (a : Asset) (f : Filter) :
    a.latest f = a.snapshot 0 >>= fun bar => bar.holds f := by
  by_cases nonempty : 0 < a.length
  · rw [latest, a.snapshot_of_lt nonempty, RangeError.check_eq_ok_iff.mpr nonempty]
    rfl
  · have empty : a.length ≤ 0 := by omega
    rw [latest, snapshot, dif_neg nonempty, RangeError.check_of_le empty]
    rfl

/-- The error a filter has at the newest bar of an asset, beside the symbol. -/
def unanswered? (f : Filter) (a : Asset) : Option (String × RangeError) :=
  match a.latest f with
  | .ok _ => none
  | .error e => some (a.symbol, e)

theorem unanswered?_of_ok {holds : Bool} (verdict : a.latest f = .ok holds) :
    a.unanswered? f = none := by
  rw [unanswered?, verdict]

theorem unanswered?_of_error {e : RangeError} (verdict : a.latest f = .error e) :
    a.unanswered? f = some (a.symbol, e) := by
  rw [unanswered?, verdict]

end Asset

namespace ScreenResult

/-- Each class of one result and then that of another. -/
def append (first second : ScreenResult) : ScreenResult where
  passed := first.passed ++ second.passed
  rejected := first.rejected ++ second.rejected
  ineligible := first.ineligible ++ second.ineligible

theorem append_empty (r : ScreenResult) : empty.append r = r := rfl

theorem add_append (symbol : String) (verdict : Except RangeError Bool)
    (first second : ScreenResult) :
    (first.add symbol verdict).append second = (first.append second).add symbol verdict := by
  cases verdict with
  | ok holds => cases holds <;> rfl
  | error e => rfl

/-- Every asset is in the class of its own answer, in the order of the assets. -/
structure Classifies (r : ScreenResult) (assets : List Asset) (f : Filter) : Prop where
  passed : r.passed = (assets.filter fun a => a.latest f = .ok true).map Asset.symbol
  rejected : r.rejected = (assets.filter fun a => a.latest f = .ok false).map Asset.symbol
  ineligible : r.ineligible = assets.filterMap (·.unanswered? f)

variable {r : ScreenResult} {assets : List Asset} {f : Filter}

theorem Classifies.add (classified : r.Classifies assets f) (a : Asset) :
    (r.add a.symbol (a.latest f)).Classifies (a :: assets) f := by
  obtain ⟨passed, rejected, ineligible⟩ := classified
  cases verdict : a.latest f with
  | ok holds =>
    have answered := Asset.unanswered?_of_ok verdict
    cases holds <;> constructor <;>
      simp [ScreenResult.add, verdict, passed, rejected, ineligible, answered]
  | error e =>
    have unanswered := Asset.unanswered?_of_error verdict
    constructor <;> simp [ScreenResult.add, verdict, passed, rejected, ineligible, unanswered]

/-- No asset is in two classes, and none is in no class. -/
theorem Classifies.length (classified : r.Classifies assets f) :
    r.passed.length + r.rejected.length + r.ineligible.length = assets.length := by
  obtain ⟨passed, rejected, ineligible⟩ := classified
  rw [passed, rejected, ineligible]
  clear passed rejected ineligible
  induction assets with
  | nil => rfl
  | cons a rest ih =>
    cases verdict : a.latest f with
    | ok holds =>
      have answered := Asset.unanswered?_of_ok verdict
      cases holds <;> simp [verdict, answered] at ih ⊢ <;> omega
    | error e =>
      have unanswered := Asset.unanswered?_of_error verdict
      simp [verdict, unanswered] at ih ⊢
      omega

end ScreenResult

theorem screen_cons (a : Asset) (assets : List Asset) (f : Filter) :
    screen (a :: assets) f = (screen assets f).add a.symbol (a.latest f) := rfl

theorem screen_append (first second : List Asset) (f : Filter) :
    screen (first ++ second) f = (screen first f).append (screen second f) := by
  induction first with
  | nil => exact (ScreenResult.append_empty _).symm
  | cons a rest ih =>
    rw [List.cons_append, screen_cons, screen_cons, ih, ScreenResult.add_append]

theorem screen_classifies (assets : List Asset) (f : Filter) :
    (screen assets f).Classifies assets f := by
  induction assets with
  | nil => exact ⟨rfl, rfl, rfl⟩
  | cons a rest ih => exact ih.add a

end TradingRules
