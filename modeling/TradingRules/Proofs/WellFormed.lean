import TradingRules.Proofs.Grammar

/-!
# Well-formed trees

What holds of every tree that comes out of a document: no period is zero, a fast period is below its
slow one, no conjunction, disjunction or list of exit rules is empty, and no range is empty for want
of order between its bounds.
-/

namespace TradingRules

def Method.WellFormed : Method → Prop
  | value _ => True
  | field _ => True
  | absDiff lhs rhs => lhs.WellFormed ∧ rhs.WellFormed
  | atr period => 1 ≤ period
  | sma period source => 1 ≤ period ∧ source.WellFormed
  | ema period source => 1 ≤ period ∧ source.WellFormed
  | bollinger period _ _ => 1 ≤ period
  | macd fast slow signal _ => 1 ≤ fast ∧ fast < slow ∧ 1 ≤ signal
  | stochastic kPeriod dPeriod _ => 1 ≤ kPeriod ∧ 1 ≤ dPeriod

inductive Filter.WellFormed : Filter → Prop
  | always (b : Bool) : WellFormed (.always b)
  | compare {op : Comparison} {lhs rhs : Method} : lhs.WellFormed → rhs.WellFormed →
      WellFormed (.compare op lhs rhs)
  | crossAbove {lhs rhs : Method} : lhs.WellFormed → rhs.WellFormed →
      WellFormed (.crossAbove lhs rhs)
  | crossBelow {lhs rhs : Method} : lhs.WellFormed → rhs.WellFormed →
      WellFormed (.crossBelow lhs rhs)
  | between {operand : Method} {lower upper : Float} : operand.WellFormed → lower ≤ upper →
      WellFormed (.between operand lower upper)
  | all {args : List Filter} : args ≠ [] → (∀ f ∈ args, WellFormed f) → WellFormed (.all args)
  | any {args : List Filter} : args ≠ [] → (∀ f ∈ args, WellFormed f) → WellFormed (.any args)
  | not {arg : Filter} : WellFormed arg → WellFormed (.not arg)

def ExitRule.WellFormed : ExitRule → Prop
  | takeProfit _ price => price.WellFormed
  | stopLoss _ price => price.WellFormed
  | signal filter => filter.WellFormed

structure Strategy.WellFormed (s : Strategy) : Prop where
  entry : s.entry.WellFormed
  price : s.price.WellFormed
  exits : ∀ rule ∈ s.exits, rule.WellFormed
  exits_ne_nil : s.exits ≠ []

namespace Document

open Json (get?)

variable {n : Node} {key : String}

theorem Node.one_le_of_periodD {default p : Nat} (positive : 1 ≤ default)
    (read : n.periodD key default = .ok p) : 1 ≤ p := by
  rcases periodD_eq_ok_iff.mp read with ⟨-, rfl⟩ | ⟨-, bound⟩
  · exact positive
  · exact bound

theorem bollinger_wellFormed {m : Method} (read : bollinger n = .ok m) : m.WellFormed := by
  simp only [bollinger, bind_eq_ok_iff, Node.period_eq_ok_iff, pure_eq_ok, Except.ok.injEq] at read
  obtain ⟨period, ⟨-, positive⟩, multiplier, -, output, -, rfl⟩ := read
  exact positive

theorem stochastic_wellFormed {m : Method} (read : stochastic n = .ok m) : m.WellFormed := by
  simp only [stochastic, bind_eq_ok_iff, Node.period_eq_ok_iff, pure_eq_ok, Except.ok.injEq] at read
  obtain ⟨kPeriod, ⟨-, k_positive⟩, dPeriod, ⟨-, d_positive⟩, output, -, rfl⟩ := read
  exact ⟨k_positive, d_positive⟩

theorem macd_wellFormed {m : Method} (read : macd n = .ok m) : m.WellFormed := by
  simp only [macd, bind_eq_ok_iff] at read
  obtain ⟨fast, read_fast, slow, -, signal, read_signal, read⟩ := read
  split at read
  · cases read
  · rename_i order
    simp only [bind_eq_ok_iff, pure_eq_ok, Except.ok.injEq] at read
    obtain ⟨output, -, rfl⟩ := read
    exact ⟨Node.one_le_of_periodD (by decide) read_fast, Nat.lt_of_not_le order,
      Node.one_le_of_periodD (by decide) read_signal⟩

theorem bounds_ordered {lower upper : Float} (read : bounds n = .ok (lower, upper)) :
    lower ≤ upper := by
  simp only [bounds, bind_eq_ok_iff, Node.number_eq_ok_iff] at read
  obtain ⟨_, ⟨low, -, rfl⟩, _, ⟨high, -, rfl⟩, read⟩ := read
  split at read
  · cases read
  · rename_i order
    simp only [pure_eq_ok, Except.ok.injEq, Prod.mk.injEq] at read
    obtain ⟨rfl, rfl⟩ := read
    exact (le_iff_not_lt low.isNaN_toFloat high.isNaN_toFloat).mpr order

/-- A method inside a node is well-formed if every method that compiles is. -/
theorem wellFormed_of_innerD {compile : Json → Except Fault Method} {m : Method}
    (sound : ∀ {v m}, compile v = .ok m → m.WellFormed)
    (read : innerD compile n key .closing = .ok m) : m.WellFormed := by
  rcases innerD_eq_ok_iff.mp read with ⟨-, rfl⟩ | ⟨v, -, compiled⟩
  · trivial
  · exact sound compiled

theorem compileMethod_wellFormed {limit levels : Nat} {v : Json} {m : Method}
    (compiled : compileMethod limit levels v = .ok m) : m.WellFormed := by
  induction levels generalizing v m with
  | zero => cases compiled
  | succ levels ih =>
    rw [compileMethod, entered_eq_ok_iff] at compiled
    obtain ⟨n, tag, t, rfl, -, -, compiled⟩ := compiled
    cases t <;> simp only [bind_eq_ok_iff, here_eq_ok_iff, inner_eq_ok_iff, Node.period_eq_ok_iff,
      pure_eq_ok, Except.ok.injEq] at compiled
    case value =>
      obtain ⟨x, -, rfl⟩ := compiled
      trivial
    case field =>
      obtain ⟨f, -, rfl⟩ := compiled
      trivial
    case absDiff =>
      obtain ⟨lhs, ⟨_, -, left⟩, rhs, ⟨_, -, right⟩, rfl⟩ := compiled
      exact ⟨ih left, ih right⟩
    case atr =>
      obtain ⟨period, ⟨-, positive⟩, rfl⟩ := compiled
      exact positive
    case sma =>
      obtain ⟨source, read, period, ⟨-, positive⟩, rfl⟩ := compiled
      exact ⟨positive, wellFormed_of_innerD ih read⟩
    case ema =>
      obtain ⟨source, read, period, ⟨-, positive⟩, rfl⟩ := compiled
      exact ⟨positive, wellFormed_of_innerD ih read⟩
    case bollinger => exact bollinger_wellFormed compiled
    case macd => exact macd_wellFormed compiled
    case stochastic => exact stochastic_wellFormed compiled

theorem operands_wellFormed {limit levels : Nat} {lhs rhs : Method}
    (read : operands (compileMethod limit levels) n = .ok (lhs, rhs)) :
    lhs.WellFormed ∧ rhs.WellFormed := by
  simp only [operands, bind_eq_ok_iff, inner_eq_ok_iff, pure_eq_ok, Except.ok.injEq,
    Prod.mk.injEq] at read
  obtain ⟨_, ⟨_, -, left⟩, _, ⟨_, -, right⟩, rfl, rfl⟩ := read
  exact ⟨compileMethod_wellFormed left, compileMethod_wellFormed right⟩

theorem members_wellFormed {compile : Json → Except Fault Filter} {args : List Filter}
    (sound : ∀ {v f}, compile v = .ok f → f.WellFormed) (read : members compile n = .ok args) :
    args ≠ [] ∧ ∀ f ∈ args, f.WellFormed := by
  simp only [members, bind_eq_ok_iff, here_eq_ok_iff, Node.items_eq_ok_iff] at read
  obtain ⟨items, ⟨-, filled⟩, compiled⟩ := read
  obtain ⟨length, from_items⟩ := compileItems_eq_ok compiled
  refine ⟨?_, fun f member => ?_⟩
  · rw [← List.length_pos_iff] at filled ⊢
    omega
  · obtain ⟨v, -, item⟩ := from_items f member
    exact sound item

theorem compileFilter_wellFormed {limit levels : Nat} {v : Json} {f : Filter}
    (compiled : compileFilter limit levels v = .ok f) : f.WellFormed := by
  induction levels generalizing v f with
  | zero => cases compiled
  | succ levels ih =>
    rw [compileFilter, entered_eq_ok_iff] at compiled
    obtain ⟨n, tag, t, rfl, -, -, compiled⟩ := compiled
    cases t <;> simp only [bind_eq_ok_iff, here_eq_ok_iff, inner_eq_ok_iff, pure_eq_ok,
      Except.ok.injEq, Prod.exists] at compiled
    case always b =>
      obtain rfl := compiled
      exact .always b
    case compare op =>
      obtain ⟨lhs, rhs, read, rfl⟩ := compiled
      obtain ⟨left, right⟩ := operands_wellFormed read
      exact .compare left right
    case crossAbove =>
      obtain ⟨lhs, rhs, read, rfl⟩ := compiled
      obtain ⟨left, right⟩ := operands_wellFormed read
      exact .crossAbove left right
    case crossBelow =>
      obtain ⟨lhs, rhs, read, rfl⟩ := compiled
      obtain ⟨left, right⟩ := operands_wellFormed read
      exact .crossBelow left right
    case between =>
      obtain ⟨operand, ⟨_, -, compiled_operand⟩, lower, upper, read, rfl⟩ := compiled
      exact .between (compileMethod_wellFormed compiled_operand) (bounds_ordered read)
    case all =>
      obtain ⟨args, read, rfl⟩ := compiled
      obtain ⟨filled, sound⟩ := members_wellFormed ih read
      exact .all filled sound
    case any =>
      obtain ⟨args, read, rfl⟩ := compiled
      obtain ⟨filled, sound⟩ := members_wellFormed ih read
      exact .any filled sound
    case not =>
      obtain ⟨arg, ⟨_, -, compiled_arg⟩, rfl⟩ := compiled
      exact .not (ih compiled_arg)

theorem compileExit_wellFormed {limit levels : Nat} {v : Json} {rule : ExitRule}
    (compiled : compileExit limit levels v = .ok rule) : rule.WellFormed := by
  cases levels with
  | zero => cases compiled
  | succ levels =>
    rw [compileExit, entered_eq_ok_iff] at compiled
    obtain ⟨n, tag, t, rfl, -, -, compiled⟩ := compiled
    cases t <;> simp only [bind_eq_ok_iff, here_eq_ok_iff, inner_eq_ok_iff, pure_eq_ok,
      Except.ok.injEq] at compiled
    case takeProfit =>
      obtain ⟨price, read, target, -, rfl⟩ := compiled
      exact wellFormed_of_innerD compileMethod_wellFormed read
    case stopLoss =>
      obtain ⟨price, read, target, -, rfl⟩ := compiled
      exact wellFormed_of_innerD compileMethod_wellFormed read
    case signal =>
      obtain ⟨filter, ⟨_, -, compiled_filter⟩, rfl⟩ := compiled
      exact compileFilter_wellFormed compiled_filter

theorem compileStrategy_wellFormed {limit levels : Nat} {v : Json} {s : Strategy}
    (compiled : compileStrategy limit levels v = .ok s) : s.WellFormed := by
  cases levels with
  | zero => cases compiled
  | succ levels =>
    simp only [compileStrategy, bind_eq_ok_iff, here_eq_ok_iff, inner_eq_ok_iff,
      Node.items_eq_ok_iff, pure_eq_ok, Except.ok.injEq] at compiled
    obtain ⟨n, -, entry, ⟨_, -, compiled_entry⟩, price, read_price, items, ⟨-, filled⟩, exits,
      compiled_exits, name, -, description, -, rfl⟩ := compiled
    obtain ⟨length, from_items⟩ := compileItems_eq_ok compiled_exits
    refine ⟨compileFilter_wellFormed compiled_entry,
      wellFormed_of_innerD compileMethod_wellFormed read_price, fun rule member => ?_, ?_⟩
    · obtain ⟨v, -, item⟩ := from_items rule member
      exact compileExit_wellFormed item
    · change exits ≠ []
      rw [← List.length_pos_iff] at filled ⊢
      omega

/-- The compilers succeed on the documents of the grammar and on nothing else, whatever the deepest
node may be, and every tree they return is well-formed. -/
theorem compile_accepts_grammar (d : Nat) (v : Json) :
    ((∃ m, Method.compile d v = .ok m) ↔ MethodDoc d 0 v) ∧
    ((∃ f, Filter.compile d v = .ok f) ↔ FilterDoc d 0 v) ∧
    ((∃ s, Strategy.compile d v = .ok s) ↔ StrategyDoc d v) ∧
    (∀ m, Method.compile d v = .ok m → m.WellFormed) ∧
    (∀ f, Filter.compile d v = .ok f → f.WellFormed) ∧
    ∀ s, Strategy.compile d v = .ok s → s.WellFormed := by
  have root : d + 1 + 0 = d + 1 := rfl
  refine ⟨succeeds_compileMethod root v, succeeds_compileFilter root v,
    succeeds_compileStrategy d v, ?_, ?_, ?_⟩
  · exact fun m compiled => compileMethod_wellFormed compiled
  · exact fun f compiled => compileFilter_wellFormed compiled
  · exact fun s compiled => compileStrategy_wellFormed compiled

end Document

end TradingRules
