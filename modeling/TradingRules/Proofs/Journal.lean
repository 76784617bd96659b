import TradingRules.Proofs.Replay

/-!
# What a journal holds

Times and prices in a journal are those of its bars, and all of it happens below the index its
replay starts from. One decision is in force at each bar, to close a position that is held there or
else to open one, and the bars skipped are those whose decision in force fails.
-/

namespace TradingRules

section Records

variable (a : Asset) (s : Strategy)

/-- A position has the time and the price of its bar. -/
structure Position.Recorded (p : Position) : Prop where
  entryTime : (a.quote? p.entryIndex).map Quote.time = some p.entryTime
  entryPrice : s.price.valueAt a p.entryIndex = .ok p.entryPrice

/-- A trade has the times and the prices of its two bars, and their difference as its profit. -/
structure RoundTrip.Recorded (t : RoundTrip) : Prop where
  entryTime : (a.quote? t.entryIndex).map Quote.time = some t.entryTime
  entryPrice : s.price.valueAt a t.entryIndex = .ok t.entryPrice
  exitTime : (a.quote? t.exitIndex).map Quote.time = some t.exitTime
  exitPrice : s.price.valueAt a t.exitIndex = .ok t.exitPrice
  profit : t.profit = t.exitPrice - t.entryPrice

variable {a s} {n : Nat}

theorem Position.Recorded.close {p : Position} (recorded : p.Recorded a s)
    (inside : n < a.history.length) {price : Float} (value : s.price.valueAt a n = .ok price) :
    (p.close ⟨n, a.history[n].time⟩ price).Recorded a s where
  entryTime := recorded.entryTime
  entryPrice := recorded.entryPrice
  exitTime := by
    simp only [Position.close, a.quote?_eq, List.getElem?_eq_getElem inside, Option.map_some]
  exitPrice := value
  profit := rfl

/-- A replay that starts with nothing but a recorded position leaves nothing else behind. -/
theorem Asset.replayBelow_recorded (inside : n ≤ a.history.length) (position : Option Position)
    (recorded : ∀ p ∈ position, p.Recorded a s) :
    (∀ t ∈ (a.replayBelow s n position).trades, t.Recorded a s) ∧
      ∀ p ∈ (a.replayBelow s n position).position, p.Recorded a s := by
  induction n generalizing position with
  | zero =>
    rw [replayBelow_zero]
    exact ⟨fun t member => (List.not_mem_nil member).elim, recorded⟩
  | succ n ih =>
    have older : n ≤ a.history.length := Nat.le_of_succ_le inside
    cases position with
    | none =>
      rcases replayBelow_succ_none (s := s) inside with
        ⟨price, -, -, value, step⟩ | ⟨-, -, step⟩ | ⟨-, -, step⟩
      · rw [step]
        refine ih older _ fun p opened => ?_
        obtain rfl := Option.mem_some.mp opened
        refine ⟨?_, value⟩
        simp only [a.quote?_eq, List.getElem?_eq_getElem inside, Option.map_some]
      · rw [step]
        exact ih older none recorded
      · rw [step]
        exact ih older none recorded
    | some p =>
      have opened : p.Recorded a s := recorded p rfl
      rcases replayBelow_succ_some (s := s) inside p with
        ⟨price, -, -, value, step⟩ | ⟨-, -, step⟩ | ⟨-, -, step⟩
      · obtain ⟨trades, last⟩ := ih older none fun q empty => by cases empty
        rw [step]
        refine ⟨?_, last⟩
        rw [List.forall_mem_cons]
        exact ⟨opened.close inside value, trades⟩
      · rw [step]
        exact ih older (some p) recorded
      · rw [step]
        exact ih older (some p) recorded

end Records

/-- The position a trade began as. -/
def RoundTrip.opening (t : RoundTrip) : Position :=
  ⟨t.entryIndex, t.entryTime, t.entryPrice⟩

namespace Journal

/-- Everything in a journal happens below an index. -/
structure Below (j : Journal) (n : Nat) : Prop where
  trades : ∀ t ∈ j.trades, t.entryIndex < n ∧ t.exitIndex < n
  position : ∀ p ∈ j.position, p.entryIndex < n

/-- A journal has a position from its start, kept to the end or closed below an index by its first
trade, and everything else in it happens below that index. -/
def Continues (j : Journal) (p : Position) (n : Nat) : Prop :=
  j.trades = [] ∧ j.position = some p ∨
    ∃ first rest, j.trades = first :: rest ∧ first.opening = p ∧ first.exitIndex < n ∧
      Below { j with trades := rest } n

theorem Below.succ {j : Journal} {n : Nat} (below : j.Below n) : j.Below (n + 1) where
  trades t member := by
    have inside := below.trades t member
    omega
  position p last := by
    have inside := below.position p last
    omega

theorem Continues.succ {j : Journal} {p : Position} {n : Nat} (continues : j.Continues p n) :
    j.Continues p (n + 1) := by
  rcases continues with kept | ⟨first, rest, trades, opening, closed, below⟩
  · exact .inl kept
  · exact .inr ⟨first, rest, trades, opening, by omega, below.succ⟩

/-- A position opened at the bound is part of what happens below the next one. -/
theorem Continues.below {j : Journal} {p : Position} {n : Nat} (continues : j.Continues p n)
    (opened : p.entryIndex = n) : j.Below (n + 1) := by
  rcases continues with ⟨trades, last⟩ | ⟨first, rest, trades, rfl, closed, below⟩
  · refine ⟨by simp [trades], fun q kept => ?_⟩
    obtain rfl := Option.mem_some.mp (last ▸ kept)
    omega
  · have newer := below.succ
    refine ⟨?_, newer.position⟩
    rw [trades, List.forall_mem_cons]
    refine ⟨⟨?_, by omega⟩, newer.trades⟩
    have : first.opening.entryIndex = first.entryIndex := rfl
    omega

end Journal

namespace Asset

variable {a : Asset} {s : Strategy} {n : Nat}

/-- A replay happens below the index it starts from, except for a position it starts with. -/
theorem replayBelow_below (inside : n ≤ a.history.length) :
    (a.replayBelow s n none).Below n ∧
      ∀ p, (a.replayBelow s n (some p)).Continues p n := by
  induction n with
  | zero =>
    constructor
    · rw [replayBelow_zero]
      exact ⟨fun t member => (List.not_mem_nil member).elim, fun p empty => by cases empty⟩
    · intro p
      rw [replayBelow_zero]
      exact .inl ⟨rfl, rfl⟩
  | succ n ih =>
    obtain ⟨flat, held⟩ := ih (Nat.le_of_succ_le inside)
    constructor
    · rcases replayBelow_succ_none (s := s) inside with
        ⟨price, -, -, -, step⟩ | ⟨-, -, step⟩ | ⟨-, -, step⟩
      · rw [step]
        exact (held _).below rfl
      · rw [step]
        exact flat.succ
      · rw [step]
        exact ⟨flat.succ.trades, flat.succ.position⟩
    · intro p
      rcases replayBelow_succ_some (s := s) inside p with
        ⟨price, -, -, -, step⟩ | ⟨-, -, step⟩ | ⟨-, -, step⟩
      · rw [step]
        exact .inr ⟨_, _, rfl, rfl, Nat.lt_succ_self n, flat.succ.trades, flat.succ.position⟩
      · rw [step]
        exact (held p).succ
      · rw [step]
        rcases (held p).succ with kept | ⟨first, rest, trades, opening, closed, below⟩
        · exact .inl kept
        · exact .inr ⟨first, rest, trades, opening, closed, below.trades, below.position⟩

end Asset

namespace Journal

/-- A position is held at a bar: opened at an older one, and closed there, at a newer one or
never. -/
def Holding (j : Journal) (i : Nat) : Prop :=
  (∃ t ∈ j.trades, t.exitIndex ≤ i ∧ i < t.entryIndex) ∨ ∃ p ∈ j.position, i < p.entryIndex

instance (j : Journal) (i : Nat) : Decidable (j.Holding i) :=
  inferInstanceAs (Decidable (_ ∨ _))

/-- The decision in force at a bar fails: to close the position held there, or else to open one. -/
def FailsAt (j : Journal) (a : Asset) (s : Strategy) (i : Nat) : Prop :=
  if j.Holding i then a.At s.ExitFails i else a.At s.EntryFails i

instance (j : Journal) (a : Asset) (s : Strategy) (i : Nat) : Decidable (j.FailsAt a s i) :=
  inferInstanceAs (Decidable (if j.Holding i then _ else _))

variable {j : Journal} {a : Asset} {s : Strategy} {n i : Nat}

theorem Below.not_holding (below : j.Below n) (outside : n ≤ i) : ¬ j.Holding i := by
  rintro (⟨t, member, -, held⟩ | ⟨p, last, held⟩)
  · have inside := (below.trades t member).1
    omega
  · have inside := below.position p last
    omega

theorem Continues.holding {p : Position} (continues : j.Continues p n) (reached : n ≤ i)
    (opened : i < p.entryIndex) : j.Holding i := by
  rcases continues with ⟨-, last⟩ | ⟨first, rest, trades, rfl, closed, -⟩
  · exact .inr ⟨p, last, opened⟩
  · exact .inl ⟨first, by simp [trades], by omega, opened⟩

theorem Continues.not_holding {p : Position} (continues : j.Continues p n) (reached : n ≤ i)
    (unopened : p.entryIndex ≤ i) : ¬ j.Holding i := by
  rcases continues with ⟨trades, last⟩ | ⟨first, rest, trades, rfl, closed, below⟩
  · rintro (⟨t, member, -, -⟩ | ⟨q, kept, held⟩)
    · rw [trades] at member
      cases member
    · obtain rfl := Option.mem_some.mp (last ▸ kept)
      omega
  · rintro (⟨t, member, -, held⟩ | ⟨q, kept, held⟩)
    · rw [trades, List.mem_cons] at member
      rcases member with rfl | member
      · have : t.opening.entryIndex = t.entryIndex := rfl
        omega
      · have newer := (below.trades t member).1
        omega
    · have newer := below.position q kept
      omega

theorem holding_cons {t : RoundTrip} (newer : i < t.exitIndex) :
    Holding { j with trades := t :: j.trades } i ↔ j.Holding i := by
  have closed : ¬ t.exitIndex ≤ i := by omega
  simp only [Holding, List.mem_cons, exists_eq_or_imp, closed, false_and, false_or]

theorem failsAt_congr {k : Journal} (same : j.Holding i ↔ k.Holding i) :
    j.FailsAt a s i ↔ k.FailsAt a s i := by
  simp only [FailsAt, same]

theorem failsAt_of_holding (held : j.Holding i) : j.FailsAt a s i ↔ a.At s.ExitFails i := by
  rw [FailsAt, if_pos held]

theorem failsAt_of_not_holding (flat : ¬ j.Holding i) :
    j.FailsAt a s i ↔ a.At s.EntryFails i := by
  rw [FailsAt, if_neg flat]

/-- The number of bars below an index whose decision in force fails. -/
def failures (j : Journal) (a : Asset) (s : Strategy) (n : Nat) : Nat :=
  (List.range n).countP fun i => j.FailsAt a s i

theorem failures_succ (sound : ¬ j.FailsAt a s n) : j.failures a s (n + 1) = j.failures a s n := by
  rw [failures, List.range_succ, List.countP_append, List.countP_singleton, decide_eq_false sound]
  rfl

theorem failures_succ_of_fails (fails : j.FailsAt a s n) :
    j.failures a s (n + 1) = j.failures a s n + 1 := by
  rw [failures, List.range_succ, List.countP_append, List.countP_singleton, decide_eq_true fails]
  rfl

theorem failures_congr {k : Journal} (same : ∀ i, i < n → (j.Holding i ↔ k.Holding i)) :
    j.failures a s n = k.failures a s n := by
  refine List.countP_congr fun i member => ?_
  simp only [decide_eq_true_eq]
  exact failsAt_congr (same i (List.mem_range.mp member))

end Journal

/-- The bars a replay skips are those whose decision in force fails. -/
theorem Asset.replayBelow_skipped {a : Asset} {s : Strategy} {n : Nat}
    (inside : n ≤ a.history.length) (position : Option Position)
    (older : ∀ p ∈ position, n ≤ p.entryIndex) :
    (a.replayBelow s n position).skipped = (a.replayBelow s n position).failures a s n := by
  induction n generalizing position with
  | zero =>
    rw [replayBelow_zero]
    rfl
  | succ n ih =>
    -- The position carried into bar n settles which decision is in force there; what the newer bars
    -- add to the journal happens below n and does not change that.
    have within : n ≤ a.history.length := Nat.le_of_succ_le inside
    obtain ⟨flat, held⟩ := replayBelow_below (s := s) within
    cases position with
    | none =>
      have rest := ih within none fun p empty => by cases empty
      have free := flat.not_holding (Nat.le_refl n)
      rcases replayBelow_succ_none (s := s) inside with
        ⟨price, -, sound, -, step⟩ | ⟨-, sound, step⟩ | ⟨-, fails, step⟩
      · have unheld :=
          (held ⟨n, a.history[n].time, price⟩).not_holding (Nat.le_refl n) (Nat.le_refl n)
        rw [step, Journal.failures_succ (mt (Journal.failsAt_of_not_holding unheld).mp sound)]
        refine ih within _ fun p opened => ?_
        obtain rfl := Option.mem_some.mp opened
        exact Nat.le_refl n
      · rw [step, Journal.failures_succ (mt (Journal.failsAt_of_not_holding free).mp sound), rest]
      · have failed := (Journal.failsAt_of_not_holding free).mpr fails
        rw [step]
        exact (congrArg (· + 1) rest).trans (Journal.failures_succ_of_fails failed).symm
    | some p =>
      have opened : n < p.entryIndex := older p rfl
      have rest := ih within (some p) fun q same => by
        obtain rfl := Option.mem_some.mp same
        exact Nat.le_of_lt opened
      have kept := (held p).holding (Nat.le_refl n) opened
      rcases replayBelow_succ_some (s := s) inside p with
        ⟨price, -, sound, -, step⟩ | ⟨-, sound, step⟩ | ⟨-, fails, step⟩
      · have closing : Journal.Holding { a.replayBelow s n none with
            trades := p.close ⟨n, a.history[n].time⟩ price :: (a.replayBelow s n none).trades } n :=
          .inl ⟨_, List.mem_cons_self, Nat.le_refl n, opened⟩
        have newer_bars := ih within none fun q empty => by cases empty
        rw [step, Journal.failures_succ (mt (Journal.failsAt_of_holding closing).mp sound)]
        exact newer_bars.trans
          (Journal.failures_congr fun i newer => (Journal.holding_cons newer).symm)
      · rw [step, Journal.failures_succ (mt (Journal.failsAt_of_holding kept).mp sound), rest]
      · have failed := (Journal.failsAt_of_holding kept).mpr fails
        rw [step]
        exact (congrArg (· + 1) rest).trans (Journal.failures_succ_of_fails failed).symm

end TradingRules
