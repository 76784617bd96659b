import TradingRules.Proofs.Journal

/-!
# Alternation of entries and exits

Which trades a backtest makes is settled by two sets of bars, those the strategy enters at and those
it leaves at, without any replay: from the oldest bar on, the first entry, the first exit newer than
it, the first entry newer than that, and so on. Indices count back from the newest bar, so newer
means a smaller index and the first of several bars is the largest of them.
-/

namespace TradingRules

/-- The oldest of the bars below an index that have a property. -/
def OldestBelow (P : Nat → Prop) (bound i : Nat) : Prop :=
  i < bound ∧ P i ∧ ∀ j, i < j → j < bound → ¬ P j

section OldestBelow

variable {P : Nat → Prop} {n i j : Nat}

theorem OldestBelow.unique (first : OldestBelow P n i) (second : OldestBelow P n j) : i = j := by
  obtain ⟨inside, holds, oldest⟩ := first
  obtain ⟨inside', holds', oldest'⟩ := second
  by_cases newer : i < j
  · exact absurd holds' (oldest j newer inside')
  · by_cases older : j < i
    · exact absurd holds (oldest' i older inside)
    · omega

theorem OldestBelow.here (holds : P n) : OldestBelow P (n + 1) n :=
  ⟨Nat.lt_succ_self n, holds, fun j older inside => by omega⟩

theorem OldestBelow.succ (fails : ¬ P n) (oldest : OldestBelow P n i) :
    OldestBelow P (n + 1) i := by
  obtain ⟨inside, holds, none_older⟩ := oldest
  refine ⟨by omega, holds, fun j older bound => ?_⟩
  by_cases top : j = n
  · exact top ▸ fails
  · exact none_older j older (by omega)

theorem none_below_succ (fails : ¬ P n) (none_below : ∀ i, i < n → ¬ P i) (i : Nat)
    (inside : i < n + 1) : ¬ P i := by
  by_cases top : i = n
  · exact top ▸ fails
  · exact none_below i (by omega)

end OldestBelow

/-- Entries and exits below an index, taken in turn from the oldest bar on: the pairs of an entry
and its exit, and the last entry if no exit follows it. -/
inductive Alternates (entry exit : Nat → Prop) : Nat → List (Nat × Nat) → Option Nat → Prop
  | idle {bound : Nat} : (∀ i, i < bound → ¬ entry i) → Alternates entry exit bound [] none
  | held {bound i : Nat} : OldestBelow entry bound i → (∀ j, j < i → ¬ exit j) →
      Alternates entry exit bound [] (some i)
  | round {bound i j : Nat} {rounds : List (Nat × Nat)} {last : Option Nat} :
      OldestBelow entry bound i → OldestBelow exit i j → Alternates entry exit j rounds last →
      Alternates entry exit bound ((i, j) :: rounds) last

namespace Alternates

variable {entry exit : Nat → Prop} {n i : Nat} {rounds rounds' : List (Nat × Nat)}
  {last last' : Option Nat}

/-- There is one way to alternate. -/
theorem unique (one : Alternates entry exit n rounds last)
    (other : Alternates entry exit n rounds' last') : rounds = rounds' ∧ last = last' := by
  induction one generalizing rounds' last' with
  | idle none_enter =>
    cases other with
    | idle _ => exact ⟨rfl, rfl⟩
    | held enters _ => exact absurd enters.2.1 (none_enter _ enters.1)
    | round enters _ _ => exact absurd enters.2.1 (none_enter _ enters.1)
  | held enters none_leave =>
    cases other with
    | idle none_enter => exact absurd enters.2.1 (none_enter _ enters.1)
    | held enters' _ =>
      obtain rfl := enters.unique enters'
      exact ⟨rfl, rfl⟩
    | round enters' leaves _ =>
      obtain rfl := enters.unique enters'
      exact absurd leaves.2.1 (none_leave _ leaves.1)
  | round enters leaves _ ih =>
    cases other with
    | idle none_enter => exact absurd enters.2.1 (none_enter _ enters.1)
    | held enters' none_leave =>
      obtain rfl := enters.unique enters'
      exact absurd leaves.2.1 (none_leave _ leaves.1)
    | round enters' leaves' rest =>
      obtain rfl := enters.unique enters'
      obtain rfl := leaves.unique leaves'
      obtain ⟨rfl, rfl⟩ := ih rest
      exact ⟨rfl, rfl⟩

/-- A bar that is not an entry does not matter without a position. -/
theorem succ (stays : ¬ entry n) (newer : Alternates entry exit n rounds last) :
    Alternates entry exit (n + 1) rounds last := by
  cases newer with
  | idle none_enter => exact .idle (none_below_succ stays none_enter)
  | held enters none_leave => exact .held (enters.succ stays) none_leave
  | round enters leaves rest => exact .round (enters.succ stays) leaves rest

end Alternates

/-- What follows an entry: no exit, or the oldest exit and an alternation newer than it. -/
inductive Resumes (entry exit : Nat → Prop) (opened : Nat) :
    Nat → List (Nat × Nat) → Option Nat → Prop
  | kept {bound : Nat} : (∀ j, j < bound → ¬ exit j) →
      Resumes entry exit opened bound [] (some opened)
  | closed {bound j : Nat} {rounds : List (Nat × Nat)} {last : Option Nat} :
      OldestBelow exit bound j → Alternates entry exit j rounds last →
      Resumes entry exit opened bound ((opened, j) :: rounds) last

namespace Resumes

variable {entry exit : Nat → Prop} {n opened : Nat} {rounds : List (Nat × Nat)}
  {last : Option Nat}

theorem enter (enters : entry n) (resumes : Resumes entry exit n n rounds last) :
    Alternates entry exit (n + 1) rounds last := by
  cases resumes with
  | kept none_leave => exact .held (.here enters) none_leave
  | closed leaves rest => exact .round (.here enters) leaves rest

theorem succ (stays : ¬ exit n) (newer : Resumes entry exit opened n rounds last) :
    Resumes entry exit opened (n + 1) rounds last := by
  cases newer with
  | kept none_leave => exact .kept (none_below_succ stays none_leave)
  | closed leaves rest => exact .closed (leaves.succ stays) rest

end Resumes

/-- The entry and the exit of each trade in a journal. -/
def Journal.rounds (j : Journal) : List (Nat × Nat) :=
  j.trades.map fun t => (t.entryIndex, t.exitIndex)

/-- The entry of the position a journal ends with. -/
def Journal.last (j : Journal) : Option Nat :=
  j.position.map Position.entryIndex

namespace Asset

variable {a : Asset} {s : Strategy} {n : Nat}

/-- A replay alternates between the bars its strategy enters at and those it leaves at. -/
theorem replayBelow_alternates (inside : n ≤ a.history.length) :
    Alternates (a.At s.Enters) (a.At s.Leaves) n (a.replayBelow s n none).rounds
      (a.replayBelow s n none).last ∧
    ∀ p : Position, Resumes (a.At s.Enters) (a.At s.Leaves) p.entryIndex n
      (a.replayBelow s n (some p)).rounds (a.replayBelow s n (some p)).last := by
  induction n with
  | zero =>
    simp only [replayBelow_zero]
    exact ⟨.idle fun i below => by omega, fun p => .kept fun i below => by omega⟩
  | succ n ih =>
    obtain ⟨flat, held⟩ := ih (Nat.le_of_succ_le inside)
    constructor
    · rcases replayBelow_succ_none (s := s) inside with
        ⟨price, enters, -, -, step⟩ | ⟨stays, -, step⟩ | ⟨stays, -, step⟩
      · rw [step]
        have opened := held ⟨n, a.history[n].time, price⟩
        exact opened.enter enters
      · rw [step]
        exact flat.succ stays
      · rw [step]
        exact flat.succ stays
    · intro p
      rcases replayBelow_succ_some (s := s) inside p with
        ⟨price, leaves, -, -, step⟩ | ⟨stays, -, step⟩ | ⟨stays, -, step⟩
      · rw [step]
        exact .closed (.here leaves) flat
      · rw [step]
        exact (held p).succ stays
      · rw [step]
        exact (held p).succ stays

/-- A backtest always has a result. Its trades and the position it ends with are the one alternation
of the bars that the strategy enters at and leaves at, each read on its own. They carry the times
and the prices of those bars, and the bars skipped are those whose decision in force fails. -/
theorem backtest_alternates (a : Asset) (s : Strategy) :
    ∃ ledger, a.backtest s = .ok ledger ∧
      (∀ rounds last, Alternates (a.At s.Enters) (a.At s.Leaves) a.length rounds last ↔
        rounds = ledger.journal.rounds ∧ last = ledger.journal.last) ∧
      (∀ t ∈ ledger.journal.trades, t.Recorded a s) ∧
      (∀ p ∈ ledger.journal.position, p.Recorded a s) ∧
      ledger.journal.skipped = ledger.journal.failures a s a.length := by
  have inside : a.length ≤ a.history.length := Nat.le_refl _
  have unposed : ∀ p ∈ (none : Option Position), p.Recorded a s ∧ a.length ≤ p.entryIndex :=
    fun p empty => by cases empty
  obtain ⟨alternates, -⟩ := replayBelow_alternates (s := s) inside
  obtain ⟨trades, last⟩ := replayBelow_recorded inside none fun p empty => (unposed p empty).1
  have skipped := replayBelow_skipped (s := s) inside none fun p empty => (unposed p empty).2
  refine ⟨_, a.backtest_eq s, ?_⟩
  rw [a.bars_eq]
  refine ⟨fun rounds last => ⟨fun other => other.unique alternates, ?_⟩, trades, last, skipped⟩
  rintro ⟨rfl, rfl⟩
  exact alternates

end Asset

end TradingRules
