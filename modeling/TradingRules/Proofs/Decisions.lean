import TradingRules.Proofs.Store
import TradingRules.Snapshot

/-!
# Decisions of a bar

What a strategy does at a bar is decided by what the bar shows on its own: whether the entry filter
holds or an exit rule fires there, and whether there is a price. A replay reads the bars of an asset
from the oldest on and takes one such decision at each of them.
-/

namespace TradingRules

section Rules

variable (t : Tape) (i : Nat)

/-- Some rule is triggered just when one of them fires, whatever the others answer. Without one, an
error of any of them is an error. -/
theorem triggered_cases (rules : List ExitRule) :
    ((∃ rule ∈ rules, rule.fires t i = .ok true) ∧ ∃ rule, triggered t i rules = .ok (some rule)) ∨
    ((∀ rule ∈ rules, rule.fires t i = .ok false) ∧ triggered t i rules = .ok none) ∨
    ((∀ rule ∈ rules, rule.fires t i ≠ .ok true) ∧ (∃ rule ∈ rules, Fails (rule.fires t i)) ∧
      Fails (triggered t i rules)) := by
  induction rules with
  | nil => simp [triggered]
  | cons first rest ih =>
    simp only [List.mem_cons, exists_eq_or_imp, forall_eq_or_imp]
    cases answer : first.fires t i with
    | ok fires =>
      cases fires with
      | true => simp [triggered, answer]
      | false => simpa [triggered, answer] using ih
    | error e =>
      simp only [triggered, answer]
      rcases ih with ⟨fired, rule, later⟩ | ⟨quiet, later⟩ | ⟨unfired, broken, e', later⟩
      · exact .inl ⟨.inr fired, rule, by simp only [later]⟩
      · refine .inr (.inr ⟨⟨by simp, fun rule member => by simp [quiet rule member]⟩, ?_⟩)
        simp [later]
      · refine .inr (.inr ⟨⟨by simp, unfired⟩, ?_⟩)
        simp [later]

end Rules

namespace Strategy

variable (s : Strategy) (bar : Snapshot)

/-- The entry filter holds at a bar and there is a price to open at. -/
def Enters : Prop :=
  bar.holds s.entry = .ok true ∧ ∃ price, bar.value s.price = .ok price

/-- An exit rule fires at a bar and there is a price to close at. -/
def Leaves : Prop :=
  (∃ rule ∈ s.exits, bar.fires rule = .ok true) ∧ ∃ price, bar.value s.price = .ok price

/-- The entry filter cannot be evaluated at a bar, or it holds and there is no price. -/
def EntryFails : Prop :=
  Fails (bar.holds s.entry) ∨ bar.holds s.entry = .ok true ∧ Fails (bar.value s.price)

/-- No exit rule fires at a bar and one cannot be evaluated, or one fires and there is no price. -/
def ExitFails : Prop :=
  (∀ rule ∈ s.exits, bar.fires rule ≠ .ok true) ∧ (∃ rule ∈ s.exits, Fails (bar.fires rule)) ∨
    (∃ rule ∈ s.exits, bar.fires rule = .ok true) ∧ Fails (bar.value s.price)

instance : Decidable (s.EntryFails bar) :=
  inferInstanceAs (Decidable (_ ∨ _))

instance : Decidable (s.ExitFails bar) :=
  inferInstanceAs (Decidable (_ ∨ _))

/-- What happens at a bar without a position. -/
theorem enter_cases (b : Bar) (here : b.index = bar.index) :
    (∃ price, s.Enters bar ∧ ¬ s.EntryFails bar ∧ bar.value s.price = .ok price ∧
      s.enter bar.tape b = .ok (some ⟨b.index, b.time, price⟩)) ∨
    (¬ s.Enters bar ∧ ¬ s.EntryFails bar ∧ s.enter bar.tape b = .ok none) ∨
    (¬ s.Enters bar ∧ s.EntryFails bar ∧ Fails (s.enter bar.tape b)) := by
  have filter : s.entry.evaluate bar.tape b.index = bar.holds s.entry := by rw [here]; rfl
  have value : bar.tape.value s.price b.index = bar.value s.price := by rw [here]; rfl
  simp only [Enters, EntryFails, enter, filter, value]
  cases bar.holds s.entry with
  | error e => simp
  | ok answer =>
    cases answer with
    | false => simp
    | true => cases bar.value s.price <;> simp

/-- What happens at a bar with a position. -/
theorem leave_cases (b : Bar) (here : b.index = bar.index) :
    (∃ price, s.Leaves bar ∧ ¬ s.ExitFails bar ∧ bar.value s.price = .ok price ∧
      s.leave bar.tape b = .ok (some price)) ∨
    (¬ s.Leaves bar ∧ ¬ s.ExitFails bar ∧ s.leave bar.tape b = .ok none) ∨
    (¬ s.Leaves bar ∧ s.ExitFails bar ∧ Fails (s.leave bar.tape b)) := by
  have value : bar.tape.value s.price bar.index = bar.value s.price := rfl
  simp only [Leaves, ExitFails, leave, here, Snapshot.fires, value]
  rcases triggered_cases bar.tape bar.index s.exits with
    ⟨⟨rule, member, fires⟩, found, triggers⟩ | ⟨quiet, triggers⟩ | ⟨unfired, broken, e, triggers⟩
  · have fired : ∃ rule ∈ s.exits, rule.fires bar.tape bar.index = .ok true := ⟨rule, member, fires⟩
    have not_unfired : ¬ ∀ rule ∈ s.exits, rule.fires bar.tape bar.index ≠ .ok true := by
      intro unfired
      exact unfired rule member fires
    cases bar.value s.price <;> simp [triggers, fired, not_unfired]
  · have unfired : ¬ ∃ rule ∈ s.exits, rule.fires bar.tape bar.index = .ok true := by
      rintro ⟨rule, member, fires⟩
      cases (quiet rule member).symm.trans fires
    have sound : ¬ ∃ rule ∈ s.exits, Fails (rule.fires bar.tape bar.index) := by
      rintro ⟨rule, member, fails⟩
      rw [quiet rule member] at fails
      exact not_fails_ok _ fails
    refine .inr (.inl ⟨fun leaves => unfired leaves.1, ?_, by rw [triggers]; rfl⟩)
    rintro (⟨-, broken⟩ | ⟨fired, -⟩)
    · exact sound broken
    · exact unfired fired
  · refine .inr (.inr ⟨?_, .inl ⟨unfired, broken⟩, by rw [triggers]; exact fails_error e⟩)
    rintro ⟨⟨rule, member, fires⟩, -⟩
    exact unfired rule member fires

end Strategy

end TradingRules
