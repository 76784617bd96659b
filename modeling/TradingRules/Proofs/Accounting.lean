import TradingRules.Proofs.Alternation
import TradingRules.Proofs.Numbers

/-!
# Accounts of a ledger

The trades of a backtest are held one after the other. Indices count back from the newest bar, so
each trade, and the position held at the end, lies below the exit of the trade before it; their
times are then in order because those of the asset are, and the bars they are held for add up to
less than all bars. A bar is an entry, an exit or a skip, and no more than one of them.
-/

namespace TradingRules

section Rounds

/-- The bars between entries and exits, over all rounds. -/
def spans : List (Nat × Nat) → Nat
  | [] => 0
  | r :: rest => r.1 - r.2 + spans rest

/-- Rounds of an entry and an exit below an index, one after the other, and what is entered last. -/
structure Descends (bound : Nat) (rounds : List (Nat × Nat)) (last : Option Nat) : Prop where
  inside : ∀ r ∈ rounds, r.1 < bound ∧ r.2 < r.1
  apart : rounds.Pairwise fun earlier later => later.1 < earlier.2
  last : ∀ i ∈ last, i < bound ∧ ∀ r ∈ rounds, i < r.2
  span : spans rounds ≤ bound - 1

theorem Descends.round {bound i j : Nat} {rounds : List (Nat × Nat)} {last : Option Nat}
    (entry : i < bound) (exit : j < i) (rest : Descends j rounds last) :
    Descends bound ((i, j) :: rounds) last := by
  have span := rest.span
  constructor
  · rw [List.forall_mem_cons]
    refine ⟨⟨entry, exit⟩, fun r member => ?_⟩
    obtain ⟨below, ordered⟩ := rest.inside r member
    exact ⟨by omega, ordered⟩
  · rw [List.pairwise_cons]
    exact ⟨fun r member => (rest.inside r member).1, rest.apart⟩
  · intro k kept
    obtain ⟨below, newest⟩ := rest.last k kept
    rw [List.forall_mem_cons]
    exact ⟨by omega, below, newest⟩
  · rw [spans]
    omega

theorem Alternates.descends {entry exit : Nat → Prop} {bound : Nat} {rounds : List (Nat × Nat)}
    {last : Option Nat} (alternates : Alternates entry exit bound rounds last) :
    Descends bound rounds last := by
  induction alternates with
  | idle none_enter => exact ⟨by simp, .nil, by simp, Nat.zero_le _⟩
  | held enters none_leave =>
    refine ⟨by simp, .nil, fun i kept => ?_, Nat.zero_le _⟩
    obtain rfl := Option.mem_some.mp kept
    exact ⟨enters.1, by simp⟩
  | round enters leaves rest ih => exact ih.round enters.1 leaves.1

end Rounds

section Journals

theorem Trade.holdingBars_of_le {t : Trade Float} (ordered : t.exitIndex ≤ t.entryIndex) :
    t.holdingBars = t.entryIndex - t.exitIndex :=
  if_pos ordered

/-- The bars for which positions were held, over all trades. -/
def heldBars : List (Trade Float) → Nat
  | [] => 0
  | t :: rest => t.holdingBars + heldBars rest

theorem heldBars_eq_spans {trades : List RoundTrip}
    (ordered : ∀ t ∈ trades, t.exitIndex < t.entryIndex) :
    heldBars (trades.map RoundTrip.toTrade) =
      spans (trades.map fun t => (t.entryIndex, t.exitIndex)) := by
  induction trades with
  | nil => rfl
  | cons t rest ih =>
    obtain ⟨first, others⟩ := List.forall_mem_cons.mp ordered
    have bars := Trade.holdingBars_of_le (Nat.le_of_lt first)
    rw [List.map_cons, heldBars, bars, ih others, List.map_cons, spans]

namespace Journal

/-- The trades of a journal are held one after the other below an index, and the position it ends
with is opened after all of them. -/
structure Consecutive (j : Journal) (n : Nat) : Prop where
  ordered : ∀ t ∈ j.trades, t.exitIndex < t.entryIndex
  apart : j.trades.Pairwise fun earlier later => later.entryIndex < earlier.exitIndex
  last : ∀ p ∈ j.position, ∀ t ∈ j.trades, p.entryIndex < t.exitIndex
  held : heldBars (j.trades.map RoundTrip.toTrade) ≤ n - 1

theorem consecutive {j : Journal} {n : Nat} (descends : Descends n j.rounds j.last) :
    j.Consecutive n := by
  obtain ⟨inside, apart, last, span⟩ := descends
  rw [rounds, List.forall_mem_map] at inside
  have ordered : ∀ t ∈ j.trades, t.exitIndex < t.entryIndex := fun t member =>
    (inside t member).2
  refine ⟨ordered, List.pairwise_map.mp apart, fun p opened => ?_, ?_⟩
  · obtain ⟨-, newest⟩ := last p.entryIndex (Option.mem_map_of_mem _ opened)
    exact fun t member => newest _ (List.mem_map_of_mem member)
  · rw [heldBars_eq_spans ordered]
    exact span

/-- The number of bars that are an entry, an exit or a skip. -/
def marked (j : Journal) : Nat :=
  2 * j.trades.length + (if j.position.isSome then 1 else 0) + j.skipped

end Journal

namespace Asset

variable {a : Asset} {s : Strategy} {n : Nat}

theorem replayBelow_consecutive (inside : n ≤ a.history.length) :
    (a.replayBelow s n none).Consecutive n :=
  Journal.consecutive (replayBelow_alternates inside).1.descends

/-- No bar is marked twice: a replay marks as many bars as it has at most, and one more if it starts
with a position. -/
theorem replayBelow_marked (inside : n ≤ a.history.length) :
    (a.replayBelow s n none).marked ≤ n ∧
      ∀ p, (a.replayBelow s n (some p)).marked ≤ n + 1 := by
  induction n with
  | zero => simp [replayBelow_zero, Journal.marked]
  | succ n ih =>
    obtain ⟨flat, held⟩ := ih (Nat.le_of_succ_le inside)
    constructor
    · rcases replayBelow_succ_none (s := s) inside with
        ⟨price, -, -, -, step⟩ | ⟨-, -, step⟩ | ⟨-, -, step⟩
      · rw [step]
        exact held _
      · rw [step]
        exact Nat.le_succ_of_le flat
      · rw [step]
        exact Nat.succ_le_succ flat
    · intro p
      rcases replayBelow_succ_some (s := s) inside p with
        ⟨price, -, -, -, step⟩ | ⟨-, -, step⟩ | ⟨-, -, step⟩
      · -- The trade that is closed here marks this bar and the one the position was opened at.
        rw [step]
        simp only [Journal.marked, List.length_cons] at flat ⊢
        omega
      · rw [step]
        exact Nat.le_succ_of_le (held p)
      · rw [step]
        exact Nat.succ_le_succ (held p)

/-- Of two bars the one with the smaller index is not the earlier one. -/
theorem time_le {i j : Nat} {newer older : Timestamp} (h : i < j)
    (first : (a.quote? i).map Quote.time = some newer)
    (second : (a.quote? j).map Quote.time = some older) : older ≤ newer := by
  rw [quote?_eq, Option.map_eq_some_iff] at first second
  obtain ⟨q, present, rfl⟩ := first
  obtain ⟨r, present', rfl⟩ := second
  obtain ⟨inside, rfl⟩ := List.getElem?_eq_some_iff.mp present
  obtain ⟨inside', rfl⟩ := List.getElem?_eq_some_iff.mp present'
  exact List.pairwise_iff_getElem.mp a.ordered i j inside inside' h

end Asset

end Journals

section Outcomes

namespace Trade

variable (t : Trade Float)

/-- Whether a trade is neither won nor lost. -/
def isEven : Bool := !t.isWon && !t.isLost

theorem outcome_cases :
    t.isWon = true ∧ t.isLost = false ∨ t.isWon = false ∧ t.isLost = true ∨
      t.isWon = false ∧ t.isLost = false := by
  cases won : t.isWon with
  | true => exact .inl ⟨rfl, by rw [isLost, won]; rfl⟩
  | false => cases t.isLost <;> simp

theorem counted_once :
    (if t.isWon then 1 else 0) + (if t.isLost then 1 else 0) +
      (if !t.isWon && !t.isLost then 1 else 0) = 1 := by
  rcases t.outcome_cases with ⟨won, lost⟩ | ⟨won, lost⟩ | ⟨won, lost⟩ <;> simp [won, lost]

variable {t}

theorem isEven_of_isNaN (undefined : t.profit.isNaN = true) : t.isEven = true := by
  obtain ⟨below, above⟩ := not_lt_of_isNaN undefined (Arithmetic.count 0)
  have won : t.isWon = false := decide_eq_false above
  have lost : t.isLost = false := by
    rw [isLost, decide_eq_false below, Bool.and_false]
  rw [isEven, won, lost]
  rfl

end Trade

/-- Each trade is counted as won, as lost or as even. -/
theorem Metrics.ofTrades_counts (trades : List (Trade Float)) :
    (ofTrades trades).tradesWon + (ofTrades trades).tradesLost + (ofTrades trades).tradesEven =
      trades.length := by
  simp only [ofTrades, wins, losses, List.length_map, ← List.countP_eq_length_filter]
  induction trades with
  | nil => rfl
  | cons t rest ih =>
    have once := t.counted_once
    simp only [List.countP_cons, List.length_cons]
    omega

end Outcomes

/-- What the figures of a ledger have to do with its bars and with one another. -/
structure Ledger.Balanced (l : Ledger) : Prop where
  /-- A bar is an entry, an exit or a skip, and one of them at most. -/
  marked : 2 * l.journal.trades.length + (if l.journal.position.isSome then 1 else 0) +
    l.journal.skipped ≤ l.bars
  forward : ∀ t ∈ l.journal.trades, t.entryTime ≤ t.exitTime
  chronological : l.journal.trades.Pairwise fun t next => t.exitTime ≤ next.entryTime
  last : ∀ p ∈ l.journal.position, ∀ t ∈ l.journal.trades, t.exitTime ≤ p.entryTime
  held : ∀ t ∈ l.journal.trades, t.exitIndex < t.entryIndex ∧ 1 ≤ t.holdingBars
  together : heldBars (l.journal.trades.map RoundTrip.toTrade) ≤ l.bars - 1
  metrics : l.metrics = .ofTrades (l.journal.trades.map RoundTrip.toTrade)
  total : l.metrics.totalTrades = l.journal.trades.length
  outcomes : l.metrics.tradesWon + l.metrics.tradesLost + l.metrics.tradesEven =
    l.journal.trades.length
  even : l.metrics.tradesEven = l.journal.trades.countP fun t => t.isEven
  undefined : ∀ t ∈ l.journal.trades, t.profit.isNaN = true → t.isEven = true

/-- The ledger of a backtest is balanced. -/
theorem Asset.backtest_balanced (a : Asset) (s : Strategy) :
    ∃ ledger, a.backtest s = .ok ledger ∧ ledger.bars = a.length ∧ ledger.Balanced := by
  have inside : a.length ≤ a.history.length := Nat.le_refl _
  have run := replayBelow_consecutive (s := s) inside
  obtain ⟨trades, position⟩ := replayBelow_recorded (s := s) inside none fun p empty => by
    cases empty
  refine ⟨_, a.backtest_eq_replayBelow s, rfl, ?_⟩
  constructor
  case marked => exact (replayBelow_marked inside).1
  case forward =>
    intro t member
    exact time_le (run.ordered t member) (trades t member).exitTime (trades t member).entryTime
  case chronological =>
    refine run.apart.imp_of_mem fun {t next} first second newer => ?_
    exact time_le newer (trades next second).entryTime (trades t first).exitTime
  case last =>
    intro p opened t member
    exact time_le (run.last p opened t member) (position p opened).entryTime
      (trades t member).exitTime
  case held =>
    intro t member
    have ordered := run.ordered t member
    have bars := Trade.holdingBars_of_le (Nat.le_of_lt ordered)
    exact ⟨ordered, by omega⟩
  case together => exact run.held
  case metrics => rfl
  case total => exact List.length_map _
  case outcomes => exact (Metrics.ofTrades_counts _).trans (List.length_map _)
  case even => exact List.countP_map
  case undefined => exact fun t _ nan => Trade.isEven_of_isNaN nan

end TradingRules
