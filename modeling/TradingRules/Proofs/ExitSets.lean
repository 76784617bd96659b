import TradingRules.Proofs.Decisions

/-!
# Exit rules as a set

Which rules a strategy leaves by matters, but not their order and not how often one is listed. At a
bar, either some rule fires, or all of them hold still, or one of them fails and none fires; each of
these speaks of the rules as a set. What a replay makes of a bar depends on nothing else.
-/

namespace TradingRules

section Rules

variable {t : Tape} {i : Nat} {rules : List ExitRule}

theorem triggered_some_iff :
    (∃ rule, triggered t i rules = .ok (some rule)) ↔
      ∃ rule ∈ rules, rule.fires t i = .ok true := by
  rcases triggered_cases t i rules with
    ⟨fired, triggers⟩ | ⟨quiet, triggers⟩ | ⟨unfired, broken, e, triggers⟩
  · exact ⟨fun _ => fired, fun _ => triggers⟩
  · refine iff_of_false (by simp [triggers]) ?_
    rintro ⟨rule, member, fires⟩
    cases (quiet rule member).symm.trans fires
  · refine iff_of_false (by simp [triggers]) ?_
    rintro ⟨rule, member, fires⟩
    exact unfired rule member fires

theorem triggered_none_iff :
    triggered t i rules = .ok none ↔ ∀ rule ∈ rules, rule.fires t i = .ok false := by
  rcases triggered_cases t i rules with
    ⟨⟨rule, member, fires⟩, first, triggers⟩ | ⟨quiet, triggers⟩ |
      ⟨unfired, ⟨rule, member, fails⟩, e, triggers⟩
  · refine iff_of_false (by simp [triggers]) fun quiet => ?_
    cases (quiet rule member).symm.trans fires
  · exact ⟨fun _ => quiet, fun _ => triggers⟩
  · refine iff_of_false (by simp [triggers]) fun quiet => ?_
    rw [quiet rule member] at fails
    exact not_fails_ok _ fails

end Rules

namespace Strategy

variable {s other : Strategy} {t : Tape}

/-- Two strategies with one price and the same rules leave at the same bars, at the same prices, and
fail at the same bars, though maybe with another error. -/
theorem leave_of_same_exits (price : s.price = other.price)
    (same : ∀ rule, rule ∈ s.exits ↔ rule ∈ other.exits) (b : Bar) :
    (s.leave t b).toOption = (other.leave t b).toOption := by
  have fired : (∃ rule, triggered t b.index s.exits = .ok (some rule)) ↔
      ∃ rule, triggered t b.index other.exits = .ok (some rule) := by
    simp only [triggered_some_iff, same]
  have quiet : triggered t b.index s.exits = .ok none ↔
      triggered t b.index other.exits = .ok none := by
    simp only [triggered_none_iff, same]
  simp only [leave, price]
  cases mine : triggered t b.index s.exits with
  | ok answer =>
    cases answer with
    | none =>
      rw [quiet.mp mine]
    | some rule =>
      obtain ⟨rule', theirs⟩ := fired.mp ⟨rule, mine⟩
      rw [theirs]
      rfl
  | error e =>
    cases theirs : triggered t b.index other.exits with
    | error e' => rfl
    | ok answer =>
      -- The other list would have an answer that this one would share.
      cases answer with
      | none => cases mine.symm.trans (quiet.mpr theirs)
      | some rule =>
        obtain ⟨rule', answers⟩ := fired.mpr ⟨rule, theirs⟩
        cases mine.symm.trans answers

/-- A replay looks at the decisions of a strategy only, and at their errors only as errors. -/
theorem replay_congr (enters : ∀ b, (s.enter t b).toOption = (other.enter t b).toOption)
    (leaves : ∀ b, (s.leave t b).toOption = (other.leave t b).toOption) (bars : List Bar)
    (position : Option Position) :
    s.replay t bars position = other.replay t bars position := by
  induction bars generalizing position with
  | nil => rfl
  | cons b newer ih =>
    cases position with
    | none =>
      have decision := enters b
      cases mine : s.enter t b with
      | ok opened =>
        rw [mine] at decision
        have theirs := toOption_eq_some_iff.mp decision.symm
        simp only [replay, mine, theirs, ih]
      | error e =>
        rw [mine] at decision
        obtain ⟨e', theirs⟩ := toOption_eq_none_iff.mp decision.symm
        simp only [replay, mine, theirs, ih]
    | some p =>
      have decision := leaves b
      cases mine : s.leave t b with
      | ok price =>
        rw [mine] at decision
        have theirs := toOption_eq_some_iff.mp decision.symm
        cases price <;> simp only [replay, mine, theirs, ih]
      | error e =>
        rw [mine] at decision
        obtain ⟨e', theirs⟩ := toOption_eq_none_iff.mp decision.symm
        simp only [replay, mine, theirs, ih]

end Strategy

namespace Asset

/-- A backtest has one result for all lists of the same exit rules, in any order and with any
repeats: the same trades, the same position at the end, as many bars skipped and the same
figures. -/
theorem backtest_of_same_exits (a : Asset) (s : Strategy) (exits : List ExitRule)
    (same : ∀ rule, rule ∈ exits ↔ rule ∈ s.exits) :
    ∃ ledger, a.backtest s = .ok ledger ∧ a.backtest { s with exits := exits } = .ok ledger := by
  have enters : ∀ b, ({ s with exits := exits }.enter a.tape b).toOption =
      (s.enter a.tape b).toOption := fun b => rfl
  have leaves : ∀ b, ({ s with exits := exits }.leave a.tape b).toOption =
      (s.leave a.tape b).toOption := Strategy.leave_of_same_exits rfl same
  have journals := Strategy.replay_congr enters leaves a.bars none
  refine ⟨.ofJournal a (s.replay a.tape a.bars none), a.backtest_eq s, ?_⟩
  rw [a.backtest_eq, journals]

/-- Four bars, and an average of four of them as the price of one rule, which therefore fails at the
two bars between. The first of these is skipped; at the second one the other rule fires and the
failure does not count, wherever the rules are listed and however often. -/
theorem backtest_of_same_exits_reversed :
    let day (n : Fin 31) (close : Float) : Quote := ⟨⟨2024, 1, n + 1, 0, 0, 0, by decide, by decide,
      ⟨Nat.succ_pos n, n.isLt⟩, by decide, by decide, by decide⟩, close, close, close, close, 1000⟩
    let average : ExitRule := .takeProfit 12.0 (.sma 4 (.field .close))
    let high : ExitRule := .takeProfit 13.0 (.field .close)
    let s : Strategy := ⟨"two ways out", "", .always true, .field .close, [average, high]⟩
    let a : Asset := ofQuotes "TEST" [day 0 10.0, day 1 11.0, day 2 13.0, day 3 12.0]
    (∀ rule, rule ∈ [high, high, average] ↔ rule ∈ s.exits) ∧
      ∃ ledger, a.backtest s = .ok ledger ∧
        a.backtest { s with exits := [high, high, average] } = .ok ledger ∧
        ledger.journal = ⟨[⟨⟨3, 1, 10.0, 13.0, 3.0⟩, (day 0 10.0).time, (day 2 13.0).time⟩],
          some ⟨0, (day 3 12.0).time, 12.0⟩, 1⟩ := by
  intro day average high s a
  have same : ∀ rule, rule ∈ [high, high, average] ↔ rule ∈ s.exits := by
    intro rule
    change rule ∈ [high, high, average] ↔ rule ∈ [average, high]
    simp only [List.mem_cons, List.not_mem_nil, or_false]
    constructor
    · rintro (again | again | other)
      · exact .inr again
      · exact .inr again
      · exact .inl other
    · rintro (other | again)
      · exact .inr (.inr other)
      · exact .inl again
  obtain ⟨ledger, ran, ran_otherwise⟩ := backtest_of_same_exits a s _ same
  obtain rfl := Except.ok.inj ((backtest_eq a s).symm.trans ran)
  exact ⟨same, _, ran, ran_otherwise, by decide +kernel⟩

end Asset

end TradingRules
