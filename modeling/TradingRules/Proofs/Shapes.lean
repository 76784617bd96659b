import TradingRules.Proofs.Parameters

/-!
# Shapes of nodes

What the compilers ask of a node, as a table: for each tag, which parameters hold expressions and of
which category, which others there are, and in which order all of them are looked at. One walk over
a document by this table ends with the fault that the compilers report, or with none.
-/

namespace TradingRules.Document

open Json (get?)

/-- What a node is compiled as: an expression of a category, or the root of a strategy. -/
inductive Role where
  | expression (category : Category)
  | strategy
deriving DecidableEq, Repr

/-- How a parameter that holds expressions may be given: as one, as one that may be left out, or as
an array of at least one. -/
inductive Form where
  | required
  | optional
  | several (expected : Expected)
deriving DecidableEq, Repr

structure Slot where
  key : String
  category : Category
  form : Form
deriving DecidableEq, Repr

/-- What a parameter without expressions in it should be. -/
inductive Kind where
  | number
  | period
  | string
  | choice (names : List String)
deriving DecidableEq, Repr

/-- What is asked of the parameters without expressions in them: of one of them, or of two together
that can be read. -/
inductive Check where
  | required (key : String) (kind : Kind)
  | optional (key : String) (kind : Kind)
  | fastBelowSlow
  | lowerNotAboveUpper
deriving DecidableEq, Repr

/-- The parameters of a node in the order they are looked at. -/
structure Shape where
  slots : List Slot
  checks : List Check
deriving DecidableEq, Repr

section Tables

open Kind Check Form

def MethodTag.shape : MethodTag → Shape
  | .value => ⟨[], [required "value" number]⟩
  | .field => ⟨[], [required "field" (choice (Named.choices Field))]⟩
  | .absDiff => ⟨[⟨"lhs", .method, .required⟩, ⟨"rhs", .method, .required⟩], []⟩
  | .atr => ⟨[], [required "period" period]⟩
  | .sma => ⟨[⟨"source", .method, .optional⟩], [required "period" period]⟩
  | .ema => ⟨[⟨"source", .method, .optional⟩], [required "period" period]⟩
  | .bollinger => ⟨[], [required "period" period, optional "multiplier" number,
      required "output" (choice (Named.choices Band))]⟩
  | .macd => ⟨[], [optional "fast" period, optional "slow" period, optional "signal" period,
      fastBelowSlow, required "output" (choice (Named.choices MacdOutput))]⟩
  | .stochastic => ⟨[], [required "k_period" period, required "d_period" period,
      required "output" (choice (Named.choices StochasticOutput))]⟩

def FilterTag.shape : FilterTag → Shape
  | .always _ => ⟨[], []⟩
  | .compare _ => ⟨[⟨"lhs", .method, .required⟩, ⟨"rhs", .method, .required⟩], []⟩
  | .crossAbove => ⟨[⟨"lhs", .method, .required⟩, ⟨"rhs", .method, .required⟩], []⟩
  | .crossBelow => ⟨[⟨"lhs", .method, .required⟩, ⟨"rhs", .method, .required⟩], []⟩
  | .between => ⟨[⟨"operand", .method, .required⟩],
      [required "lower" number, required "upper" number, lowerNotAboveUpper]⟩
  | .all => ⟨[⟨"args", .filter, several .filters⟩], []⟩
  | .any => ⟨[⟨"args", .filter, several .filters⟩], []⟩
  | .not => ⟨[⟨"arg", .filter, .required⟩], []⟩

def ExitTag.shape : ExitTag → Shape
  | .takeProfit => ⟨[⟨"price", .method, .optional⟩], [required "target" number]⟩
  | .stopLoss => ⟨[⟨"price", .method, .optional⟩], [required "target" number]⟩
  | .signal => ⟨[⟨"filter", .filter, .required⟩], []⟩

def strategyShape : Shape where
  slots := [⟨"entry", .filter, .required⟩, ⟨"price", .method, .optional⟩,
    ⟨"exits", .exitRule, several .exitRules⟩]
  checks := [required "name" string, optional "description" string]

end Tables

/-- The shape a node must have in a role. -/
def Role.shape (n : Node) : Role → Except Cause Shape
  | .expression .method => MethodTag.shape <$> tagOf MethodTag .method n
  | .expression .filter => FilterTag.shape <$> tagOf FilterTag .filter n
  | .expression .exitRule => ExitTag.shape <$> tagOf ExitTag .exitRule n
  | .strategy => .ok strategyShape

def Kind.check (key : String) (v : Json) : Kind → Except Cause Unit
  | number => verdict (Node.expect key .number v.float?)
  | period => verdict (Node.expect key .period (Node.period? v))
  | string => verdict (Node.expect key .string v.string?)
  | choice names => do
    let s ← Node.expect key .string v.string?
    if s ∈ names then return () else .error (.invalidParameter key (.oneOf names))

def Check.run (n : Node) : Check → Except Cause Unit
  | required key kind => do kind.check key (← n.required key)
  | optional key kind =>
    match get? n key with
    | none => .ok ()
    | some v => kind.check key v
  | fastBelowSlow =>
    match n.periodD "fast" defaultFast, n.periodD "slow" defaultSlow with
    | .ok fast, .ok slow =>
      if slow ≤ fast then .error (.invalidParameter "fast" .belowSlow) else .ok ()
    | _, _ => .ok ()
  | lowerNotAboveUpper =>
    match n.number "lower", n.number "upper" with
    | .ok lower, .ok upper =>
      if lower > upper then .error (.invalidParameter "lower" .notAboveUpper) else .ok ()
    | _, _ => .ok ()

/-- The items of an array, each one under its own step. -/
def inspectItems (inspect : Json → Except Fault Unit) (key : String) :
    (index : Nat) → List Json → Except Fault Unit
  | _, [] => .ok ()
  | index, v :: rest => do
    under (.item key index) (inspect v)
    inspectItems inspect key (index + 1) rest

def Slot.inspect (inspect : Category → Json → Except Fault Unit) (n : Node) (slot : Slot) :
    Except Fault Unit :=
  match slot.form with
  | .required => inner (inspect slot.category) n slot.key
  | .optional => innerD (inspect slot.category) n slot.key ()
  | .several expected => do
    let items ← here (n.items slot.key expected)
    inspectItems (inspect slot.category) slot.key 0 items

/-- The expressions in a node, and then its other parameters. -/
def Shape.inspect (inspect : Category → Json → Except Fault Unit) (n : Node) (shape : Shape) :
    Except Fault Unit := do
  forM shape.slots (Slot.inspect inspect n)
  here (forM shape.checks (Check.run n))

/-- Walks over a document by the table. -/
def inspect (limit : Nat) : (levels : Nat) → Role → Json → Except Fault Unit
  | 0, _, _ => .error ⟨[], .tooDeep limit⟩
  | levels + 1, role, v => do
    let n ← here (node v)
    let shape ← here (role.shape n)
    shape.inspect (fun category => inspect limit levels (.expression category)) n

section Verdicts

variable {α β : Type} {n : Node} {key : String}

theorem verdict_here (r : Except Cause α) : verdict (here r) = here (verdict r) := by
  cases r <;> rfl

theorem here_ok (x : α) : here (.ok x) = .ok x := rfl

theorem verdict_under (step : Step) (r : Except Fault α) :
    verdict (under step r) = under step (verdict r) := by
  cases r <;> rfl

theorem here_bind (r : Except Cause α) (f : α → Except Cause β) :
    here (r >>= f) = here r >>= fun x => here (f x) := by
  cases r <;> rfl

theorem inner_verdict (compile : Json → Except Fault α) :
    inner (fun v => verdict (compile v)) n key = verdict (inner compile n key) := by
  simp only [inner, verdict_bind, verdict_under]

theorem innerD_verdict (compile : Json → Except Fault α) (default : α) :
    innerD (fun v => verdict (compile v)) n key () = verdict (innerD compile n key default) := by
  simp only [innerD]
  cases get? n key with
  | none => rfl
  | some v => exact (verdict_under _ _).symm

theorem inspectItems_verdict (compile : Json → Except Fault α) (index : Nat) (items : List Json) :
    inspectItems (fun v => verdict (compile v)) key index items =
      verdict (compileItems compile key index items) := by
  induction items generalizing index with
  | nil => rfl
  | cons v rest ih =>
    simp only [inspectItems, compileItems, verdict_bind, pure_eq_ok, verdict_ok, ih,
      ← verdict_under, verdict_then, bind_ok_unit]

end Verdicts

section Readers

variable (n : Node) (key : String)

theorem run_number : Check.run n (.required key .number) = verdict (n.number key) := by
  rw [Node.number, verdict_bind]
  rfl

theorem run_period : Check.run n (.required key .period) = verdict (n.period key) := by
  rw [Node.period, verdict_bind]
  rfl

theorem run_string : Check.run n (.required key .string) = verdict (n.string key) := by
  rw [Node.string, verdict_bind]
  rfl

theorem run_numberD (default : Float) :
    Check.run n (.optional key .number) = verdict (n.numberD key default) := by
  rw [Check.run, Node.numberD]
  cases get? n key <;> rfl

theorem run_periodD (default : Nat) :
    Check.run n (.optional key .period) = verdict (n.periodD key default) := by
  rw [Check.run, Node.periodD]
  cases get? n key <;> rfl

theorem run_stringD (default : String) :
    Check.run n (.optional key .string) = verdict (n.stringD key default) := by
  rw [Check.run, Node.stringD]
  cases get? n key <;> rfl

theorem run_choice (α : Type) [Named α] :
    Check.run n (.required key (.choice (Named.choices α))) = verdict (n.choice α key) := by
  have named : ∀ s, (if s ∈ Named.choices α then .ok ()
      else .error (.invalidParameter key (.oneOf (Named.choices α)))) =
      verdict (Node.expect key (.oneOf (Named.choices α)) (Named.find? s : Option α)) := by
    intro s
    cases found : (Named.find? s : Option α) with
    | none =>
      have unnamed : s ∉ Named.choices α := by
        rw [← Named.exists_find?_iff, found]
        simp
      rw [if_neg unnamed]
      rfl
    | some x =>
      rw [if_pos ((Named.exists_find?_iff α s).mp ⟨x, found⟩)]
      rfl
  simp only [Check.run, Kind.check, Node.choice, Node.string, verdict_bind, bind_assoc, pure_eq_ok,
    named]

theorem checks_bollinger :
    forM MethodTag.bollinger.shape.checks (Check.run n) = verdict (bollinger n) := by
  simp only [MethodTag.shape, List.forM_cons, List.forM_nil, run_period, run_choice, bollinger,
    run_numberD n _ defaultMultiplier, verdict_bind, verdict_then, verdict_verdict, pure_eq_ok,
    verdict_ok, bind_ok_unit]

theorem checks_stochastic :
    forM MethodTag.stochastic.shape.checks (Check.run n) = verdict (stochastic n) := by
  simp only [MethodTag.shape, List.forM_cons, List.forM_nil, run_period, run_choice, stochastic,
    verdict_bind, verdict_then, verdict_verdict, pure_eq_ok, verdict_ok, bind_ok_unit]

theorem run_fastBelowSlow {fast slow : Nat} (has_fast : n.periodD "fast" defaultFast = .ok fast)
    (has_slow : n.periodD "slow" defaultSlow = .ok slow) :
    Check.run n .fastBelowSlow =
      if slow ≤ fast then .error (.invalidParameter "fast" .belowSlow) else .ok () := by
  rw [Check.run, has_fast, has_slow]

theorem run_lowerNotAboveUpper {lower upper : Float} (has_lower : n.number "lower" = .ok lower)
    (has_upper : n.number "upper" = .ok upper) :
    Check.run n .lowerNotAboveUpper =
      if lower > upper then .error (.invalidParameter "lower" .notAboveUpper) else .ok () := by
  rw [Check.run, has_lower, has_upper]

theorem checks_macd : forM MethodTag.macd.shape.checks (Check.run n) = verdict (macd n) := by
  simp only [MethodTag.shape, List.forM_cons, List.forM_nil, run_choice, macd,
    run_periodD n "fast" defaultFast, run_periodD n "slow" defaultSlow,
    run_periodD n "signal" defaultSignal, verdict_bind, verdict_then, verdict_verdict, pure_eq_ok,
    bind_ok_unit]
  cases has_fast : n.periodD "fast" defaultFast with
  | error cause => rfl
  | ok fast =>
    cases has_slow : n.periodD "slow" defaultSlow with
    | error cause => rfl
    | ok slow =>
      simp only [ok_bind, run_fastBelowSlow n has_fast has_slow]
      by_cases order : slow ≤ fast
      · simp only [if_pos order]
        cases n.periodD "signal" defaultSignal <;> rfl
      · simp only [if_neg order, ok_bind, verdict_bind, verdict_ok, bind_ok_unit]

theorem checks_bounds :
    forM FilterTag.between.shape.checks (Check.run n) = verdict (bounds n) := by
  simp only [FilterTag.shape, List.forM_cons, List.forM_nil, run_number, bounds, verdict_bind,
    verdict_then, pure_eq_ok, bind_ok_unit]
  cases has_lower : n.number "lower" with
  | error cause => rfl
  | ok lower =>
    cases has_upper : n.number "upper" with
    | error cause => rfl
    | ok upper =>
      simp only [ok_bind, run_lowerNotAboveUpper n has_lower has_upper]
      by_cases order : lower > upper
      · simp only [if_pos order, verdict_error]
      · simp only [if_neg order, verdict_ok]

end Readers

/-- A node with a tag is walked over by the shape of its tag. -/
theorem inspect_entered {α β : Type} [Named α] {category : Category} {v : Json}
    {body : Node → α → Except Fault β} {shape : α → Shape}
    {walk : Category → Json → Except Fault Unit}
    (each : ∀ n t, verdict (body n t) = (shape t).inspect walk n) :
    verdict (do
      let n ← here (node v)
      let t ← here (tagOf α category n)
      body n t) = (do
      let n ← here (node v)
      let shape ← here (shape <$> tagOf α category n)
      shape.inspect walk n) := by
  cases node v with
  | error cause => rfl
  | ok n =>
    simp only [here, ok_bind]
    cases tagOf α category n with
    | error cause => rfl
    | ok t => exact each n t

theorem inspect_method (limit levels : Nat) (v : Json) :
    inspect limit levels (.expression .method) v = verdict (compileMethod limit levels v) := by
  induction levels generalizing v with
  | zero => rfl
  | succ levels ih =>
    have sub : inspect limit levels (.expression .method) =
        fun w => verdict (compileMethod limit levels w) := funext ih
    rw [compileMethod, inspect]
    refine (inspect_entered fun n t => ?_).symm
    cases t
    case bollinger =>
      rw [verdict_here, ← checks_bollinger]
      rfl
    case macd =>
      rw [verdict_here, ← checks_macd]
      rfl
    case stochastic =>
      rw [verdict_here, ← checks_stochastic]
      rfl
    all_goals
      simp only [Shape.inspect, MethodTag.shape, List.forM_cons, List.forM_nil, Slot.inspect, sub,
        inner_verdict, innerD_verdict _ Method.closing, run_number, run_period, run_choice,
        verdict_bind, verdict_then, verdict_verdict, verdict_here, verdict_ok, here_ok, pure_eq_ok,
        ok_bind, bind_ok_unit]

theorem inspect_filter (limit levels : Nat) (v : Json) :
    inspect limit levels (.expression .filter) v = verdict (compileFilter limit levels v) := by
  induction levels generalizing v with
  | zero => rfl
  | succ levels ih =>
    have sub : inspect limit levels (.expression .filter) =
        fun w => verdict (compileFilter limit levels w) := funext ih
    have method : inspect limit levels (.expression .method) =
        fun w => verdict (compileMethod limit levels w) := funext (inspect_method limit levels)
    rw [compileFilter, inspect]
    refine (inspect_entered fun n t => ?_).symm
    cases t
    case between =>
      simp only [Shape.inspect, checks_bounds]
      simp only [FilterTag.shape, List.forM_cons, List.forM_nil, Slot.inspect, method,
        inner_verdict, verdict_bind, verdict_then, verdict_verdict, ← verdict_here, verdict_ok,
        pure_eq_ok, bind_ok_unit]
    all_goals
      simp only [Shape.inspect, FilterTag.shape, List.forM_cons, List.forM_nil, Slot.inspect, sub,
        method, operands, members, inspectItems_verdict, inner_verdict, bind_assoc, verdict_bind,
        verdict_then, verdict_verdict, verdict_ok, here_ok, pure_eq_ok, ok_bind, bind_ok_unit]

theorem inspect_exit (limit levels : Nat) (v : Json) :
    inspect limit levels (.expression .exitRule) v = verdict (compileExit limit levels v) := by
  cases levels with
  | zero => rfl
  | succ levels =>
    have method : inspect limit levels (.expression .method) =
        fun w => verdict (compileMethod limit levels w) := funext (inspect_method limit levels)
    have filter : inspect limit levels (.expression .filter) =
        fun w => verdict (compileFilter limit levels w) := funext (inspect_filter limit levels)
    rw [compileExit, inspect]
    refine (inspect_entered fun n t => ?_).symm
    cases t <;>
      simp only [Shape.inspect, ExitTag.shape, List.forM_cons, List.forM_nil, Slot.inspect, method,
        filter, inner_verdict, innerD_verdict _ Method.closing, run_number, verdict_bind,
        verdict_then, verdict_verdict, verdict_here, verdict_ok, here_ok, pure_eq_ok, bind_ok_unit]

theorem inspect_strategy (limit levels : Nat) (v : Json) :
    inspect limit levels .strategy v = verdict (compileStrategy limit levels v) := by
  cases levels with
  | zero => rfl
  | succ levels =>
    have method : inspect limit levels (.expression .method) =
        fun w => verdict (compileMethod limit levels w) := funext (inspect_method limit levels)
    have filter : inspect limit levels (.expression .filter) =
        fun w => verdict (compileFilter limit levels w) := funext (inspect_filter limit levels)
    have exit : inspect limit levels (.expression .exitRule) =
        fun w => verdict (compileExit limit levels w) := funext (inspect_exit limit levels)
    rw [compileStrategy, inspect]
    cases node v with
    | error cause => rfl
    | ok n =>
      simp only [Role.shape, Shape.inspect, strategyShape, List.forM_cons, List.forM_nil,
        Slot.inspect, method, filter, exit, inspectItems_verdict, inner_verdict,
        innerD_verdict _ Method.closing, run_string, run_stringD _ _ "", here_bind, bind_assoc,
        verdict_bind, verdict_then, verdict_verdict, verdict_here, verdict_ok, here_ok, pure_eq_ok,
        ok_bind, bind_ok_unit]

/-- Compiles a document as what a role calls for and keeps the fault only, if there is one. -/
def Role.compile (maxDepth : Nat) (v : Json) : Role → Except Fault Unit
  | .expression .method => verdict (Method.compile maxDepth v)
  | .expression .filter => verdict (Filter.compile maxDepth v)
  | .expression .exitRule => verdict (compileExit maxDepth (maxDepth + 1) v)
  | .strategy => verdict (Strategy.compile maxDepth v)

/-- The table says which documents compile and with which fault the others do not. -/
theorem Role.compile_eq_inspect (d : Nat) (v : Json) (role : Role) :
    role.compile d v = inspect d (d + 1) role v := by
  cases role with
  | strategy => exact (inspect_strategy d (d + 1) v).symm
  | expression category =>
    cases category with
    | method => exact (inspect_method d (d + 1) v).symm
    | filter => exact (inspect_filter d (d + 1) v).symm
    | exitRule => exact (inspect_exit d (d + 1) v).symm

end TradingRules.Document
