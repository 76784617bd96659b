import TradingRules.Proofs.Grammar
import TradingRules.Proofs.ReadNumbers

/-!
# Trees whose numbers are finite

The numbers of a tree are those of its document, or a default. So all numbers of a tree are finite
if its document was read from a text.
-/

namespace TradingRules

/-- Whether all numbers in a method are finite. -/
def Method.Finite : Method → Prop
  | value x => x.isFinite = true
  | absDiff lhs rhs => lhs.Finite ∧ rhs.Finite
  | sma _ source => source.Finite
  | ema _ source => source.Finite
  | bollinger _ multiplier _ => multiplier.isFinite = true
  | field _ => True
  | atr _ => True
  | macd _ _ _ _ => True
  | stochastic _ _ _ => True

namespace Filter

mutual

/-- Whether all numbers in a filter are finite. -/
def Finite : Filter → Prop
  | always _ => True
  | compare _ lhs rhs => lhs.Finite ∧ rhs.Finite
  | crossAbove lhs rhs => lhs.Finite ∧ rhs.Finite
  | crossBelow lhs rhs => lhs.Finite ∧ rhs.Finite
  | between operand lower upper =>
    operand.Finite ∧ lower.isFinite = true ∧ upper.isFinite = true
  | all args => AllFinite args
  | any args => AllFinite args
  | not arg => arg.Finite

def AllFinite : List Filter → Prop
  | [] => True
  | f :: rest => f.Finite ∧ AllFinite rest

end

theorem allFinite_of_forall {args : List Filter} (each : ∀ f ∈ args, f.Finite) :
    AllFinite args := by
  induction args with
  | nil => trivial
  | cons f rest ih =>
    obtain ⟨first, others⟩ := List.forall_mem_cons.mp each
    exact ⟨first, ih others⟩

end Filter

/-- Whether all numbers in an exit rule are finite. -/
def ExitRule.Finite : ExitRule → Prop
  | takeProfit target price => target.isFinite = true ∧ price.Finite
  | stopLoss target price => target.isFinite = true ∧ price.Finite
  | signal filter => filter.Finite

/-- Whether all numbers in a strategy are finite. -/
structure Strategy.Finite (s : Strategy) : Prop where
  entry : s.entry.Finite
  price : s.price.Finite
  exits : ∀ rule ∈ s.exits, rule.Finite

namespace Document

section Nodes

variable {n : Node} {key : String} (fields : Json.FiniteFields n)

include fields

theorem Node.finite_of_number {x : Float} (read : n.number key = .ok x) : x.isFinite = true := by
  obtain ⟨number, present, rfl⟩ := number_eq_ok_iff.mp read
  cases fields key _ present with
  | number finite => exact finite

theorem Node.finite_of_numberD {default x : Float} (finite_default : default.isFinite = true)
    (read : n.numberD key default = .ok x) : x.isFinite = true := by
  rcases numberD_eq_ok_iff.mp read with ⟨-, rfl⟩ | ⟨v, present, value⟩
  · exact finite_default
  · obtain ⟨number, rfl, rfl⟩ := float?_eq_some_iff.mp value
    cases fields key _ present with
    | number finite => exact finite

/-- A method inside a node is finite if every method that compiles is. -/
theorem finite_of_innerD {compile : Json → Except Fault Method} {m : Method}
    (sound : ∀ {v m}, v.Finite → compile v = .ok m → m.Finite)
    (read : innerD compile n key .closing = .ok m) : m.Finite := by
  rcases innerD_eq_ok_iff.mp read with ⟨-, rfl⟩ | ⟨v, present, compiled⟩
  · trivial
  · exact sound (fields key v present) compiled

theorem bollinger_finite {m : Method} (read : bollinger n = .ok m) : m.Finite := by
  simp only [bollinger, bind_eq_ok_iff, pure_eq_ok, Except.ok.injEq] at read
  obtain ⟨period, -, multiplier, read_multiplier, output, -, rfl⟩ := read
  exact Node.finite_of_numberD fields rfl read_multiplier

theorem bounds_finite {lower upper : Float} (read : bounds n = .ok (lower, upper)) :
    lower.isFinite = true ∧ upper.isFinite = true := by
  simp only [bounds, bind_eq_ok_iff] at read
  obtain ⟨low, read_low, high, read_high, read⟩ := read
  split at read
  · cases read
  · cases read
    exact ⟨Node.finite_of_number fields read_low, Node.finite_of_number fields read_high⟩

end Nodes

variable {limit levels : Nat} {v : Json}

/-- No other method has a number in its document that is kept as one. -/
theorem macd_finite {n : Node} {m : Method} (read : macd n = .ok m) : m.Finite := by
  simp only [macd, bind_eq_ok_iff] at read
  obtain ⟨fast, -, slow, -, signal, -, read⟩ := read
  split at read
  · cases read
  · simp only [bind_eq_ok_iff, pure_eq_ok, Except.ok.injEq] at read
    obtain ⟨output, -, rfl⟩ := read
    trivial

theorem stochastic_finite {n : Node} {m : Method} (read : stochastic n = .ok m) : m.Finite := by
  simp only [stochastic, bind_eq_ok_iff, pure_eq_ok, Except.ok.injEq] at read
  obtain ⟨kPeriod, -, dPeriod, -, output, -, rfl⟩ := read
  trivial

theorem compileMethod_finite {m : Method} (finite : v.Finite)
    (compiled : compileMethod limit levels v = .ok m) : m.Finite := by
  induction levels generalizing v m with
  | zero => cases compiled
  | succ levels ih =>
    rw [compileMethod, entered_eq_ok_iff] at compiled
    obtain ⟨n, tag, t, rfl, -, -, compiled⟩ := compiled
    have fields := finite.fields
    cases t <;> simp only [bind_eq_ok_iff, here_eq_ok_iff, inner_eq_ok_iff, pure_eq_ok,
      Except.ok.injEq] at compiled
    case value =>
      obtain ⟨x, read, rfl⟩ := compiled
      exact Node.finite_of_number fields read
    case field =>
      obtain ⟨f, -, rfl⟩ := compiled
      trivial
    case absDiff =>
      obtain ⟨lhs, ⟨v, at_lhs, left⟩, rhs, ⟨w, at_rhs, right⟩, rfl⟩ := compiled
      exact ⟨ih (fields _ v at_lhs) left, ih (fields _ w at_rhs) right⟩
    case atr =>
      obtain ⟨period, -, rfl⟩ := compiled
      trivial
    case sma =>
      obtain ⟨source, read, period, -, rfl⟩ := compiled
      have inside : source.Finite := finite_of_innerD fields ih read
      exact inside
    case ema =>
      obtain ⟨source, read, period, -, rfl⟩ := compiled
      have inside : source.Finite := finite_of_innerD fields ih read
      exact inside
    case bollinger => exact bollinger_finite fields compiled
    case macd => exact macd_finite compiled
    case stochastic => exact stochastic_finite compiled

theorem operands_finite {n : Node} {lhs rhs : Method} (fields : Json.FiniteFields n)
    (read : operands (compileMethod limit levels) n = .ok (lhs, rhs)) :
    lhs.Finite ∧ rhs.Finite := by
  simp only [operands, bind_eq_ok_iff, inner_eq_ok_iff, pure_eq_ok, Except.ok.injEq,
    Prod.mk.injEq] at read
  obtain ⟨_, ⟨v, at_lhs, left⟩, _, ⟨w, at_rhs, right⟩, rfl, rfl⟩ := read
  exact ⟨compileMethod_finite (fields _ v at_lhs) left,
    compileMethod_finite (fields _ w at_rhs) right⟩

/-- What is compiled from the members of an array is finite if every member gives what is. -/
theorem finite_of_compileItems {α : Type} {Good : α → Prop} {compile : Json → Except Fault α}
    {name : String} {items : List Json} {xs : List α} (finite : (Json.array items).Finite)
    (sound : ∀ {v x}, v.Finite → compile v = .ok x → Good x)
    (compiled : compileItems compile name 0 items = .ok xs) : ∀ x ∈ xs, Good x := by
  intro x member
  obtain ⟨v, listed, item⟩ := (compileItems_eq_ok compiled).2 x member
  exact sound (finite.items v listed) item

theorem members_finite {n : Node} {compile : Json → Except Fault Filter} {args : List Filter}
    (fields : Json.FiniteFields n)
    (sound : ∀ {v f}, v.Finite → compile v = .ok f → f.Finite)
    (read : members compile n = .ok args) : Filter.AllFinite args := by
  simp only [members, bind_eq_ok_iff, here_eq_ok_iff, Node.items_eq_ok_iff] at read
  obtain ⟨items, ⟨present, -⟩, compiled⟩ := read
  apply Filter.allFinite_of_forall
  exact finite_of_compileItems (fields _ _ present) sound compiled

theorem compileFilter_finite {f : Filter} (finite : v.Finite)
    (compiled : compileFilter limit levels v = .ok f) : f.Finite := by
  induction levels generalizing v f with
  | zero => cases compiled
  | succ levels ih =>
    rw [compileFilter, entered_eq_ok_iff] at compiled
    obtain ⟨n, tag, t, rfl, -, -, compiled⟩ := compiled
    have fields := finite.fields
    cases t <;> simp only [bind_eq_ok_iff, here_eq_ok_iff, inner_eq_ok_iff, pure_eq_ok,
      Except.ok.injEq, Prod.exists] at compiled
    case always b =>
      obtain rfl := compiled
      trivial
    case compare op =>
      obtain ⟨lhs, rhs, read, rfl⟩ := compiled
      exact operands_finite fields read
    case crossAbove =>
      obtain ⟨lhs, rhs, read, rfl⟩ := compiled
      exact operands_finite fields read
    case crossBelow =>
      obtain ⟨lhs, rhs, read, rfl⟩ := compiled
      exact operands_finite fields read
    case between =>
      obtain ⟨operand, ⟨v, present, compiled_operand⟩, lower, upper, read, rfl⟩ := compiled
      exact ⟨compileMethod_finite (fields _ v present) compiled_operand, bounds_finite fields read⟩
    case all =>
      obtain ⟨args, read, rfl⟩ := compiled
      exact members_finite fields ih read
    case any =>
      obtain ⟨args, read, rfl⟩ := compiled
      exact members_finite fields ih read
    case not =>
      obtain ⟨arg, ⟨v, present, compiled_arg⟩, rfl⟩ := compiled
      have inside : arg.Finite := ih (fields _ v present) compiled_arg
      exact inside

theorem compileExit_finite {rule : ExitRule} (finite : v.Finite)
    (compiled : compileExit limit levels v = .ok rule) : rule.Finite := by
  cases levels with
  | zero => cases compiled
  | succ levels =>
    rw [compileExit, entered_eq_ok_iff] at compiled
    obtain ⟨n, tag, t, rfl, -, -, compiled⟩ := compiled
    have fields := finite.fields
    cases t <;> simp only [bind_eq_ok_iff, here_eq_ok_iff, inner_eq_ok_iff, pure_eq_ok,
      Except.ok.injEq] at compiled
    case takeProfit =>
      obtain ⟨price, read, target, read_target, rfl⟩ := compiled
      exact ⟨Node.finite_of_number fields read_target,
        finite_of_innerD fields compileMethod_finite read⟩
    case stopLoss =>
      obtain ⟨price, read, target, read_target, rfl⟩ := compiled
      exact ⟨Node.finite_of_number fields read_target,
        finite_of_innerD fields compileMethod_finite read⟩
    case signal =>
      obtain ⟨filter, ⟨v, present, compiled_filter⟩, rfl⟩ := compiled
      exact compileFilter_finite (fields _ v present) compiled_filter

theorem compileStrategy_finite {s : Strategy} (finite : v.Finite)
    (compiled : compileStrategy limit levels v = .ok s) : s.Finite := by
  cases levels with
  | zero => cases compiled
  | succ levels =>
    simp only [compileStrategy, bind_eq_ok_iff, here_eq_ok_iff, node_eq_ok_iff, inner_eq_ok_iff,
      Node.items_eq_ok_iff, pure_eq_ok, Except.ok.injEq] at compiled
    obtain ⟨n, rfl, entry, ⟨v, at_entry, compiled_entry⟩, price, read_price, items, ⟨at_exits, -⟩,
      exits, compiled_exits, name, -, description, -, rfl⟩ := compiled
    have fields := finite.fields
    exact ⟨compileFilter_finite (fields _ v at_entry) compiled_entry,
      finite_of_innerD fields compileMethod_finite read_price,
      finite_of_compileItems (fields _ _ at_exits) compileExit_finite compiled_exits⟩

end Document

/-- The trees that are compiled from a text have finite numbers only. -/
theorem finite_of_compile {text : String} {v : Json} (read : Json.parse? text = some v)
    (maxDepth : Nat) :
    (∀ m, Method.compile maxDepth v = .ok m → m.Finite) ∧
    (∀ f, Filter.compile maxDepth v = .ok f → f.Finite) ∧
    ∀ s, Strategy.compile maxDepth v = .ok s → s.Finite := by
  have finite := Json.finite_of_parse? read
  refine ⟨?_, ?_, ?_⟩
  · exact fun m compiled => Document.compileMethod_finite finite compiled
  · exact fun f compiled => Document.compileFilter_finite finite compiled
  · exact fun s compiled => Document.compileStrategy_finite finite compiled

end TradingRules
