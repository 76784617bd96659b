import TradingRules.Proofs.Decisions

/-!
# Replays, bar by bar

A replay of an asset is taken apart at its oldest bar: what the decision there makes of the
position, and the replay of the newer bars that follows. Every property of a whole replay is an
induction over these steps.
-/

namespace TradingRules

namespace Asset

variable (a : Asset)

theorem snapshot_of_lt {i : Nat} (inside : i < a.length) :
    a.snapshot i = .ok ⟨a, i, [], inside⟩ := by
  rw [snapshot, dif_pos inside]

/-- A bar of the asset, read without a store, has a property. -/
def At (P : Snapshot → Prop) (i : Nat) : Prop :=
  ∃ bar, a.snapshot i = .ok bar ∧ P bar

theorem at_iff {P : Snapshot → Prop} {i : Nat} (inside : i < a.length) :
    a.At P i ↔ P ⟨a, i, [], inside⟩ := by
  simp only [At, a.snapshot_of_lt inside, Except.ok.injEq, exists_eq_left']

instance (P : Snapshot → Prop) [DecidablePred P] (i : Nat) : Decidable (a.At P i) :=
  if inside : i < a.length then decidable_of_iff _ (a.at_iff inside).symm
  else .isFalse fun ⟨_, present, _⟩ => by rw [snapshot, dif_neg inside] at present; cases present

/-- The bars below an index, oldest first. -/
def barsBelow (n : Nat) : List Bar :=
  ((a.history.take n).mapIdx fun i q => ⟨i, q.time⟩).reverse

theorem bars_eq : a.bars = a.barsBelow a.length := by
  rw [bars, barsBelow, ← length_history, List.take_length, history]

theorem barsBelow_succ {n : Nat} (inside : n < a.history.length) :
    a.barsBelow (n + 1) = ⟨n, a.history[n].time⟩ :: a.barsBelow n := by
  have shorter : (a.history.take n).length = n := List.length_take_of_le (Nat.le_of_lt inside)
  rw [barsBelow, List.take_succ_eq_append_getElem inside, List.mapIdx_concat, List.reverse_concat,
    shorter, barsBelow]

/-- A replay of the bars below an index. -/
def replayBelow (s : Strategy) (n : Nat) (position : Option Position) : Journal :=
  s.replay a.tape (a.barsBelow n) position

/-- A backtest is a replay of all bars. -/
theorem backtest_eq_replayBelow (s : Strategy) :
    a.backtest s = .ok (.ofJournal a (a.replayBelow s a.length none)) := by
  rw [a.backtest_eq, a.bars_eq, replayBelow]

variable {a} {s : Strategy} {n : Nat}

theorem replayBelow_zero (position : Option Position) :
    a.replayBelow s 0 position = ⟨[], position, 0⟩ := by
  simp [replayBelow, barsBelow, Strategy.replay]

/-- The oldest bar of a replay that starts without a position. -/
theorem replayBelow_succ_none (inside : n < a.history.length) :
    (∃ price, a.At s.Enters n ∧ ¬ a.At s.EntryFails n ∧ s.price.valueAt a n = .ok price ∧
      a.replayBelow s (n + 1) none =
        a.replayBelow s n (some ⟨n, a.history[n].time, price⟩)) ∨
    (¬ a.At s.Enters n ∧ ¬ a.At s.EntryFails n ∧
      a.replayBelow s (n + 1) none = a.replayBelow s n none) ∨
    (¬ a.At s.Enters n ∧ a.At s.EntryFails n ∧
      a.replayBelow s (n + 1) none =
        { a.replayBelow s n none with skipped := (a.replayBelow s n none).skipped + 1 }) := by
  have through : (⟨a, n, [], inside⟩ : Snapshot).tape = a.tape := rfl
  simp only [a.at_iff inside, replayBelow, a.barsBelow_succ inside, Strategy.replay]
  have decision := s.enter_cases ⟨a, n, [], inside⟩ ⟨n, a.history[n].time⟩ rfl
  rw [through] at decision
  rcases decision with
    ⟨price, enters, sound, value, opened⟩ | ⟨stays, sound, opened⟩ | ⟨stays, fails, e, opened⟩
  · exact .inl ⟨price, enters, sound, value, by rw [opened]⟩
  · exact .inr (.inl ⟨stays, sound, by rw [opened]⟩)
  · exact .inr (.inr ⟨stays, fails, by rw [opened]⟩)

/-- The oldest bar of a replay that starts with a position. -/
theorem replayBelow_succ_some (inside : n < a.history.length) (p : Position) :
    (∃ price, a.At s.Leaves n ∧ ¬ a.At s.ExitFails n ∧ s.price.valueAt a n = .ok price ∧
      a.replayBelow s (n + 1) (some p) =
        { a.replayBelow s n none with
          trades := p.close ⟨n, a.history[n].time⟩ price :: (a.replayBelow s n none).trades }) ∨
    (¬ a.At s.Leaves n ∧ ¬ a.At s.ExitFails n ∧
      a.replayBelow s (n + 1) (some p) = a.replayBelow s n (some p)) ∨
    (¬ a.At s.Leaves n ∧ a.At s.ExitFails n ∧
      a.replayBelow s (n + 1) (some p) =
        { a.replayBelow s n (some p) with
          skipped := (a.replayBelow s n (some p)).skipped + 1 }) := by
  have through : (⟨a, n, [], inside⟩ : Snapshot).tape = a.tape := rfl
  simp only [a.at_iff inside, replayBelow, a.barsBelow_succ inside, Strategy.replay]
  have decision := s.leave_cases ⟨a, n, [], inside⟩ ⟨n, a.history[n].time⟩ rfl
  rw [through] at decision
  rcases decision with
    ⟨price, leaves, sound, value, closed⟩ | ⟨stays, sound, closed⟩ | ⟨stays, fails, e, closed⟩
  · exact .inl ⟨price, leaves, sound, value, by rw [closed]⟩
  · exact .inr (.inl ⟨stays, sound, by rw [closed]⟩)
  · exact .inr (.inr ⟨stays, fails, by rw [closed]⟩)

end Asset

end TradingRules
