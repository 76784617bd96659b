import TradingRules.Proofs.Numbers
import TradingRules.Proofs.Parameters

/-!
# The grammar of documents

What a method, a filter, an exit rule and a strategy are as documents, one rule for each shape of a
node. A rule says at which depth the node may stand, which tag it has and what its keys must have;
keys that no rule speaks of may have anything. The compilers succeed on these documents only.
-/

namespace TradingRules.Document

open Json (get?)

/-- A node at a depth `k` of at most `d`, with a tag. -/
def Entered (d k : Nat) (n : Node) (tag : String) : Prop :=
  k ≤ d ∧ get? n "type" = some (.string tag)

/-- A document of a method, with its root at depth `k` and no node deeper than `d`. -/
inductive MethodDoc (d : Nat) : Nat → Json → Prop
  | value {k : Nat} {n : Node} : Entered d k n "value" → n.HasNumber "value" →
      MethodDoc d k (.object n)
  | field {k : Nat} {n : Node} : Entered d k n "field" → n.HasChoice "field" Field →
      MethodDoc d k (.object n)
  | absDiff {k : Nat} {n : Node} {lhs rhs : Json} : Entered d k n "abs_diff" →
      get? n "lhs" = some lhs → MethodDoc d (k + 1) lhs →
      get? n "rhs" = some rhs → MethodDoc d (k + 1) rhs → MethodDoc d k (.object n)
  | atr {k : Nat} {n : Node} : Entered d k n "atr" → n.HasPeriod "period" →
      MethodDoc d k (.object n)
  | average {k : Nat} {n : Node} {tag : String} : Entered d k n tag → tag = "sma" ∨ tag = "ema" →
      (∀ source, get? n "source" = some source → MethodDoc d (k + 1) source) →
      n.HasPeriod "period" → MethodDoc d k (.object n)
  | bollinger {k : Nat} {n : Node} : Entered d k n "bollinger" → n.HasPeriod "period" →
      (∀ v, get? n "multiplier" = some v → ∃ number, v = .number number) →
      n.HasChoice "output" Band → MethodDoc d k (.object n)
  | macd {k : Nat} {n : Node} {fast slow signal : Nat} : Entered d k n "macd" →
      n.PeriodOr "fast" 12 fast → n.PeriodOr "slow" 26 slow → n.PeriodOr "signal" 9 signal →
      fast < slow → n.HasChoice "output" MacdOutput → MethodDoc d k (.object n)
  | stochastic {k : Nat} {n : Node} : Entered d k n "stochastic" → n.HasPeriod "k_period" →
      n.HasPeriod "d_period" → n.HasChoice "output" StochasticOutput → MethodDoc d k (.object n)

/-- A document of a filter. -/
inductive FilterDoc (d : Nat) : Nat → Json → Prop
  | always {k : Nat} {n : Node} {tag : String} : Entered d k n tag → tag = "true" ∨ tag = "false" →
      FilterDoc d k (.object n)
  | relation {k : Nat} {n : Node} {tag : String} {lhs rhs : Json} : Entered d k n tag →
      tag ∈ Named.choices Comparison ∨ tag = "cross_above" ∨ tag = "cross_below" →
      get? n "lhs" = some lhs → MethodDoc d (k + 1) lhs →
      get? n "rhs" = some rhs → MethodDoc d (k + 1) rhs → FilterDoc d k (.object n)
  | between {k : Nat} {n : Node} {operand : Json} {lower upper : JsonNumber} :
      Entered d k n "between" → get? n "operand" = some operand → MethodDoc d (k + 1) operand →
      get? n "lower" = some (.number lower) → get? n "upper" = some (.number upper) →
      lower.toFloat ≤ upper.toFloat → FilterDoc d k (.object n)
  | junction {k : Nat} {n : Node} {tag : String} {args : List Json} : Entered d k n tag →
      tag = "and" ∨ tag = "or" → get? n "args" = some (.array args) → args ≠ [] →
      (∀ arg ∈ args, FilterDoc d (k + 1) arg) → FilterDoc d k (.object n)
  | not {k : Nat} {n : Node} {arg : Json} : Entered d k n "not" → get? n "arg" = some arg →
      FilterDoc d (k + 1) arg → FilterDoc d k (.object n)

/-- A document of an exit rule. -/
inductive ExitDoc (d k : Nat) : Json → Prop
  | target {n : Node} {tag : String} : Entered d k n tag →
      tag = "take_profit" ∨ tag = "stop_loss" → n.HasNumber "target" →
      (∀ price, get? n "price" = some price → MethodDoc d (k + 1) price) → ExitDoc d k (.object n)
  | signal {n : Node} {filter : Json} : Entered d k n "signal" →
      get? n "filter" = some filter → FilterDoc d (k + 1) filter → ExitDoc d k (.object n)

/-- A document of a strategy: its root stands at depth 0 and needs no tag. -/
inductive StrategyDoc (d : Nat) : Json → Prop
  | root {n : Node} {entry : Json} {exits : List Json} :
      get? n "entry" = some entry → FilterDoc d 1 entry →
      (∀ price, get? n "price" = some price → MethodDoc d 1 price) →
      get? n "exits" = some (.array exits) → exits ≠ [] → (∀ rule ∈ exits, ExitDoc d 1 rule) →
      n.HasString "name" → (∀ v, get? n "description" = some v → ∃ s, v = .string s) →
      StrategyDoc d (.object n)

section Depth

variable {d k : Nat} {v : Json}

theorem MethodDoc.depth_le (doc : MethodDoc d k v) : k ≤ d := by
  cases doc <;> exact (‹Entered _ _ _ _›).1

theorem FilterDoc.depth_le (doc : FilterDoc d k v) : k ≤ d := by
  cases doc <;> exact (‹Entered _ _ _ _›).1

theorem ExitDoc.depth_le (doc : ExitDoc d k v) : k ≤ d := by
  cases doc <;> exact (‹Entered _ _ _ _›).1

end Depth

section Nodes

variable {n : Node}

theorem succeeds_bollinger : Succeeds (bollinger n) ↔
    n.HasPeriod "period" ∧ (∀ v, get? n "multiplier" = some v → ∃ number, v = .number number) ∧
      n.HasChoice "output" Band := by
  simp only [bollinger, pure_eq_ok]
  rw [succeeds_bind_and fun p => succeeds_bind_and fun m => succeeds_bind_ok,
    Node.succeeds_period, Node.succeeds_numberD, Node.succeeds_choice]

theorem succeeds_stochastic : Succeeds (stochastic n) ↔
    n.HasPeriod "k_period" ∧ n.HasPeriod "d_period" ∧ n.HasChoice "output" StochasticOutput := by
  simp only [stochastic, pure_eq_ok]
  rw [succeeds_bind_and fun p => succeeds_bind_and fun m => succeeds_bind_ok,
    Node.succeeds_period, Node.succeeds_period, Node.succeeds_choice]

theorem succeeds_macd : Succeeds (macd n) ↔ ∃ fast slow signal,
    n.PeriodOr "fast" 12 fast ∧ n.PeriodOr "slow" 26 slow ∧ n.PeriodOr "signal" 9 signal ∧
      fast < slow ∧ n.HasChoice "output" MacdOutput := by
  have rest : ∀ fast slow signal, Succeeds (if slow ≤ fast then
      .error (.invalidParameter "fast" .belowSlow)
      else do
        let output ← n.choice MacdOutput "output"
        return Method.macd fast slow signal output) ↔
      fast < slow ∧ n.HasChoice "output" MacdOutput := by
    intro fast slow signal
    by_cases order : slow ≤ fast
    · rw [if_pos order]
      exact iff_of_false (not_succeeds_error _) fun holds => by omega
    · have below : fast < slow := Nat.lt_of_not_le order
      simp only [if_neg order, pure_eq_ok, succeeds_bind_ok, Node.succeeds_choice, below, true_and]
  simp only [macd, succeeds_bind_iff, Node.periodD_eq_ok_iff, rest]
  constructor
  · rintro ⟨fast, hf, slow, hs, signal, hg, accepted⟩
    exact ⟨fast, slow, signal, hf, hs, hg, accepted⟩
  · rintro ⟨fast, slow, signal, hf, hs, hg, accepted⟩
    exact ⟨fast, hf, slow, hs, signal, hg, accepted⟩

theorem succeeds_bounds : Succeeds (bounds n) ↔ ∃ lower upper,
    get? n "lower" = some (.number lower) ∧ get? n "upper" = some (.number upper) ∧
      lower.toFloat ≤ upper.toFloat := by
  have rest : ∀ lower upper : JsonNumber, Succeeds (if lower.toFloat > upper.toFloat then
      .error (.invalidParameter "lower" .notAboveUpper)
      else .ok (lower.toFloat, upper.toFloat) : Except Cause (Float × Float)) ↔
      lower.toFloat ≤ upper.toFloat := by
    intro lower upper
    rw [le_iff_not_lt lower.isNaN_toFloat upper.isNaN_toFloat]
    by_cases above : upper.toFloat < lower.toFloat
    · simp [above]
    · simp [above]
  simp only [bounds, succeeds_bind_iff, Node.number_eq_ok_iff, pure_eq_ok]
  constructor
  · rintro ⟨_, ⟨lower, hl, rfl⟩, _, ⟨upper, hu, rfl⟩, accepted⟩
    exact ⟨lower, upper, hl, hu, (rest lower upper).mp accepted⟩
  · rintro ⟨lower, upper, hl, hu, order⟩
    exact ⟨_, ⟨lower, hl, rfl⟩, _, ⟨upper, hu, rfl⟩, (rest lower upper).mpr order⟩

theorem succeeds_operands {compile : Json → Except Fault Method} :
    Succeeds (operands compile n) ↔ (∃ lhs, get? n "lhs" = some lhs ∧ Succeeds (compile lhs)) ∧
      ∃ rhs, get? n "rhs" = some rhs ∧ Succeeds (compile rhs) := by
  simp only [operands, pure_eq_ok, succeeds_bind_bind_ok, succeeds_inner]

theorem succeeds_members {α : Type} {compile : Json → Except Fault α} :
    Succeeds (members compile n) ↔ ∃ args, get? n "args" = some (.array args) ∧ args ≠ [] ∧
      ∀ arg ∈ args, Succeeds (compile arg) := by
  simp only [members, succeeds_bind_iff, here_eq_ok_iff, Node.items_eq_ok_iff,
    succeeds_compileItems, and_assoc]

/-- A node is an object with a tag that its category knows. -/
theorem entered_eq_ok_iff {α β : Type} [Named α] {category : Category} {v : Json}
    {body : Node → α → Except Fault β} {x : β} :
    (do
      let n ← here (node v)
      let t ← here (tagOf α category n)
      body n t) = .ok x ↔
      ∃ n tag t, v = .object n ∧ get? n "type" = some (.string tag) ∧ Named.find? tag = some t ∧
        body n t = .ok x := by
  simp only [bind_eq_ok_iff, here_eq_ok_iff, node_eq_ok_iff, tagOf_eq_ok_iff]
  constructor
  · rintro ⟨n, object, t, ⟨tag, tagged, found⟩, rest⟩
    exact ⟨n, tag, t, object, tagged, found, rest⟩
  · rintro ⟨n, tag, t, object, tagged, found, rest⟩
    exact ⟨n, object, t, ⟨tag, tagged, found⟩, rest⟩

theorem succeeds_entered {α β : Type} [Named α] {category : Category} {v : Json}
    {body : Node → α → Except Fault β} :
    Succeeds (do
      let n ← here (node v)
      let t ← here (tagOf α category n)
      body n t) ↔
      ∃ n tag t, v = .object n ∧ get? n "type" = some (.string tag) ∧ Named.find? tag = some t ∧
        Succeeds (body n t) := by
  simp only [Succeeds, entered_eq_ok_iff]
  constructor
  · rintro ⟨x, n, tag, t, object, tagged, found, rest⟩
    exact ⟨n, tag, t, object, tagged, found, x, rest⟩
  · rintro ⟨n, tag, t, object, tagged, found, x, rest⟩
    exact ⟨x, n, tag, t, object, tagged, found, rest⟩

end Nodes

/-- A method compiles just when it is a document of one. -/
theorem succeeds_compileMethod {d levels k : Nat} (depth : levels + k = d + 1) (v : Json) :
    Succeeds (compileMethod d levels v) ↔ MethodDoc d k v := by
  induction levels generalizing k v with
  | zero =>
    refine iff_of_false (not_succeeds_error _) fun doc => ?_
    have := doc.depth_le
    omega
  | succ levels ih =>
    have inside : k ≤ d := by omega
    have sub : ∀ w, Succeeds (compileMethod d levels w) ↔ MethodDoc d (k + 1) w := ih (by omega)
    rw [compileMethod, succeeds_entered]
    constructor
    · rintro ⟨n, tag, t, rfl, tagged, found, accepted⟩
      obtain rfl := Named.find?_eq_some found
      have entered : Entered d k n (name t) := ⟨inside, tagged⟩
      cases t <;> simp only [pure_eq_ok, succeeds_bind_ok, succeeds_bind_bind_ok, succeeds_here,
        succeeds_inner, succeeds_innerD, Node.succeeds_number, Node.succeeds_choice,
        Node.succeeds_period, succeeds_bollinger, succeeds_macd, succeeds_stochastic,
        sub] at accepted
      case value => exact .value entered accepted
      case field => exact .field entered accepted
      case absDiff =>
        obtain ⟨⟨lhs, has_lhs, left⟩, rhs, has_rhs, right⟩ := accepted
        exact .absDiff entered has_lhs left has_rhs right
      case atr => exact .atr entered accepted
      case sma => exact .average entered (.inl rfl) accepted.1 accepted.2
      case ema => exact .average entered (.inr rfl) accepted.1 accepted.2
      case bollinger => exact .bollinger entered accepted.1 accepted.2.1 accepted.2.2
      case macd =>
        obtain ⟨fast, slow, signal, has_fast, has_slow, has_signal, order, output⟩ := accepted
        exact .macd entered has_fast has_slow has_signal order output
      case stochastic => exact .stochastic entered accepted.1 accepted.2.1 accepted.2.2
    · intro doc
      cases doc with
      | @value _ n entered number =>
        refine ⟨n, _, .value, rfl, entered.2, rfl, ?_⟩
        simpa only [pure_eq_ok, succeeds_bind_ok, succeeds_here, Node.succeeds_number] using number
      | @field _ n entered choice =>
        refine ⟨n, _, .field, rfl, entered.2, rfl, ?_⟩
        simpa only [pure_eq_ok, succeeds_bind_ok, succeeds_here, Node.succeeds_choice] using choice
      | @absDiff _ n lhs rhs entered has_lhs left has_rhs right =>
        refine ⟨n, _, .absDiff, rfl, entered.2, rfl, ?_⟩
        simp only [pure_eq_ok, succeeds_bind_bind_ok, succeeds_inner, sub]
        exact ⟨⟨lhs, has_lhs, left⟩, rhs, has_rhs, right⟩
      | @atr _ n entered period =>
        refine ⟨n, _, .atr, rfl, entered.2, rfl, ?_⟩
        simpa only [pure_eq_ok, succeeds_bind_ok, succeeds_here, Node.succeeds_period] using period
      | @average _ n tag entered kind source period =>
        have both : Succeeds (innerD (compileMethod d levels) n "source" .closing) ∧
            Succeeds (here (n.period "period")) := by
          rw [succeeds_innerD, succeeds_here, Node.succeeds_period]
          exact ⟨fun w present => (sub w).mpr (source w present), period⟩
        rcases kind with rfl | rfl
        · exact ⟨n, _, .sma, rfl, entered.2, rfl, succeeds_bind_bind_ok.mpr both⟩
        · exact ⟨n, _, .ema, rfl, entered.2, rfl, succeeds_bind_bind_ok.mpr both⟩
      | @bollinger _ n entered period multiplier output =>
        exact ⟨n, _, .bollinger, rfl, entered.2, rfl,
          succeeds_here.mpr (succeeds_bollinger.mpr ⟨period, multiplier, output⟩)⟩
      | @macd _ n fast slow signal entered has_fast has_slow has_signal order output =>
        exact ⟨n, _, .macd, rfl, entered.2, rfl, succeeds_here.mpr (succeeds_macd.mpr
          ⟨fast, slow, signal, has_fast, has_slow, has_signal, order, output⟩)⟩
      | @stochastic _ n entered k_period d_period output =>
        exact ⟨n, _, .stochastic, rfl, entered.2, rfl,
          succeeds_here.mpr (succeeds_stochastic.mpr ⟨k_period, d_period, output⟩)⟩

/-- A filter compiles just when it is a document of one. -/
theorem succeeds_compileFilter {d levels k : Nat} (depth : levels + k = d + 1) (v : Json) :
    Succeeds (compileFilter d levels v) ↔ FilterDoc d k v := by
  induction levels generalizing k v with
  | zero =>
    refine iff_of_false (not_succeeds_error _) fun doc => ?_
    have := doc.depth_le
    omega
  | succ levels ih =>
    have inside : k ≤ d := by omega
    have method : ∀ w, Succeeds (compileMethod d levels w) ↔ MethodDoc d (k + 1) w :=
      succeeds_compileMethod (by omega)
    have sub : ∀ w, Succeeds (compileFilter d levels w) ↔ FilterDoc d (k + 1) w := ih (by omega)
    rw [compileFilter, succeeds_entered]
    constructor
    · rintro ⟨n, tag, t, rfl, tagged, found, accepted⟩
      obtain rfl := Named.find?_eq_some found
      have entered : Entered d k n (name t) := ⟨inside, tagged⟩
      have relation : Succeeds (operands (compileMethod d levels) n) →
          name t ∈ Named.choices Comparison ∨ name t = "cross_above" ∨ name t = "cross_below" →
          FilterDoc d k (.object n) := by
        intro valid kind
        obtain ⟨⟨lhs, has_lhs, left⟩, rhs, has_rhs, right⟩ := succeeds_operands.mp valid
        exact .relation entered kind has_lhs ((method lhs).mp left) has_rhs ((method rhs).mp right)
      have junction : Succeeds (members (compileFilter d levels) n) →
          name t = "and" ∨ name t = "or" → FilterDoc d k (.object n) := by
        intro valid kind
        obtain ⟨args, has_args, filled, each⟩ := succeeds_members.mp valid
        refine .junction entered kind has_args filled fun arg member => ?_
        exact (sub arg).mp (each arg member)
      cases t with
      | always b => exact .always entered (by cases b <;> simp [name])
      | compare op =>
        have listed : name op ∈ Named.choices Comparison :=
          List.mem_map_of_mem (by cases op <;> decide)
        exact relation ((succeeds_bind_total fun ⟨_, _⟩ => succeeds_ok _).mp accepted) (.inl listed)
      | crossAbove =>
        exact relation ((succeeds_bind_total fun ⟨_, _⟩ => succeeds_ok _).mp accepted)
          (.inr (.inl rfl))
      | crossBelow =>
        exact relation ((succeeds_bind_total fun ⟨_, _⟩ => succeeds_ok _).mp accepted)
          (.inr (.inr rfl))
      | between =>
        rw [succeeds_bind_and fun operand => succeeds_bind_total fun ⟨_, _⟩ => succeeds_ok _,
          succeeds_inner, succeeds_here, succeeds_bounds] at accepted
        obtain ⟨⟨operand, has_operand, valid⟩, lower, upper, has_lower, has_upper, order⟩ :=
          accepted
        exact .between entered has_operand ((method operand).mp valid) has_lower has_upper order
      | all => exact junction (succeeds_bind_ok.mp accepted) (.inl rfl)
      | any => exact junction (succeeds_bind_ok.mp accepted) (.inr rfl)
      | not =>
        obtain ⟨arg, has_arg, valid⟩ := succeeds_inner.mp (succeeds_bind_ok.mp accepted)
        exact .not entered has_arg ((sub arg).mp valid)
    · intro doc
      cases doc with
      | @always _ n tag entered constant =>
        rcases constant with rfl | rfl
        · exact ⟨n, _, .always true, rfl, entered.2, rfl, succeeds_ok _⟩
        · exact ⟨n, _, .always false, rfl, entered.2, rfl, succeeds_ok _⟩
      | @relation _ n tag lhs rhs entered kind has_lhs left has_rhs right =>
        have operands_valid : Succeeds (operands (compileMethod d levels) n) :=
          succeeds_operands.mpr
            ⟨⟨lhs, has_lhs, (method lhs).mpr left⟩, rhs, has_rhs, (method rhs).mpr right⟩
        rcases kind with comparison | rfl | rfl
        · obtain ⟨op, -, rfl⟩ := List.mem_map.mp comparison
          refine ⟨n, _, .compare op, rfl, entered.2, by cases op <;> rfl, ?_⟩
          exact (succeeds_bind_total fun ⟨_, _⟩ => succeeds_ok _).mpr operands_valid
        · refine ⟨n, _, .crossAbove, rfl, entered.2, rfl, ?_⟩
          exact (succeeds_bind_total fun ⟨_, _⟩ => succeeds_ok _).mpr operands_valid
        · refine ⟨n, _, .crossBelow, rfl, entered.2, rfl, ?_⟩
          exact (succeeds_bind_total fun ⟨_, _⟩ => succeeds_ok _).mpr operands_valid
      | @between _ n operand lower upper entered has_operand valid has_lower has_upper order =>
        refine ⟨n, _, .between, rfl, entered.2, rfl, ?_⟩
        rw [succeeds_bind_and fun operand => succeeds_bind_total fun ⟨_, _⟩ => succeeds_ok _,
          succeeds_inner, succeeds_here, succeeds_bounds]
        exact ⟨⟨operand, has_operand, (method operand).mpr valid⟩,
          lower, upper, has_lower, has_upper, order⟩
      | @junction _ n tag args entered kind has_args filled valid =>
        have members_valid : Succeeds (members (compileFilter d levels) n) :=
          succeeds_members.mpr ⟨args, has_args, filled, fun arg member =>
            (sub arg).mpr (valid arg member)⟩
        rcases kind with rfl | rfl
        · exact ⟨n, _, .all, rfl, entered.2, rfl, succeeds_bind_ok.mpr members_valid⟩
        · exact ⟨n, _, .any, rfl, entered.2, rfl, succeeds_bind_ok.mpr members_valid⟩
      | @not _ n arg entered has_arg valid =>
        refine ⟨n, _, .not, rfl, entered.2, rfl, ?_⟩
        simp only [pure_eq_ok, succeeds_bind_ok, succeeds_inner, sub]
        exact ⟨arg, has_arg, valid⟩

/-- An exit rule compiles just when it is a document of one. -/
theorem succeeds_compileExit {d levels k : Nat} (depth : levels + k = d + 1) (v : Json) :
    Succeeds (compileExit d levels v) ↔ ExitDoc d k v := by
  cases levels with
  | zero =>
    refine iff_of_false (not_succeeds_error _) fun doc => ?_
    have := doc.depth_le
    omega
  | succ levels =>
    have inside : k ≤ d := by omega
    have method : ∀ w, Succeeds (compileMethod d levels w) ↔ MethodDoc d (k + 1) w :=
      succeeds_compileMethod (by omega)
    have filter : ∀ w, Succeeds (compileFilter d levels w) ↔ FilterDoc d (k + 1) w :=
      succeeds_compileFilter (by omega)
    rw [compileExit, succeeds_entered]
    constructor
    · rintro ⟨n, tag, t, rfl, tagged, found, accepted⟩
      obtain rfl := Named.find?_eq_some found
      have entered : Entered d k n (name t) := ⟨inside, tagged⟩
      cases t <;> simp only [pure_eq_ok, succeeds_bind_ok, succeeds_bind_bind_ok, succeeds_here,
        succeeds_inner, succeeds_innerD, Node.succeeds_number, method, filter] at accepted
      case takeProfit => exact .target entered (.inl rfl) accepted.2 accepted.1
      case stopLoss => exact .target entered (.inr rfl) accepted.2 accepted.1
      case signal =>
        obtain ⟨arg, has_filter, valid⟩ := accepted
        exact .signal entered has_filter valid
    · intro doc
      cases doc with
      | @target n tag entered kind target price =>
        have both : Succeeds (innerD (compileMethod d levels) n "price" .closing) ∧
            Succeeds (here (n.number "target")) := by
          rw [succeeds_innerD, succeeds_here, Node.succeeds_number]
          exact ⟨fun w present => (method w).mpr (price w present), target⟩
        rcases kind with rfl | rfl
        · exact ⟨n, _, .takeProfit, rfl, entered.2, rfl, succeeds_bind_bind_ok.mpr both⟩
        · exact ⟨n, _, .stopLoss, rfl, entered.2, rfl, succeeds_bind_bind_ok.mpr both⟩
      | @signal n arg entered has_filter valid =>
        refine ⟨n, _, .signal, rfl, entered.2, rfl, ?_⟩
        simp only [pure_eq_ok, succeeds_bind_ok, succeeds_inner, filter]
        exact ⟨arg, has_filter, valid⟩

/-- A strategy compiles just when it is a document of one. -/
theorem succeeds_compileStrategy (d : Nat) (v : Json) :
    Succeeds (compileStrategy d (d + 1) v) ↔ StrategyDoc d v := by
  have method : ∀ w, Succeeds (compileMethod d d w) ↔ MethodDoc d 1 w :=
    succeeds_compileMethod rfl
  have filter : ∀ w, Succeeds (compileFilter d d w) ↔ FilterDoc d 1 w :=
    succeeds_compileFilter rfl
  have exit : ∀ w, Succeeds (compileExit d d w) ↔ ExitDoc d 1 w := succeeds_compileExit rfl
  rw [compileStrategy]
  constructor
  · intro accepted
    obtain ⟨n, object, accepted⟩ := succeeds_bind_iff.mp accepted
    obtain ⟨entry, compiled_entry, accepted⟩ := succeeds_bind_iff.mp accepted
    obtain ⟨price, compiled_price, accepted⟩ := succeeds_bind_iff.mp accepted
    obtain ⟨items, has_items, accepted⟩ := succeeds_bind_iff.mp accepted
    obtain ⟨exits, compiled_exits, accepted⟩ := succeeds_bind_iff.mp accepted
    obtain ⟨name, has_name, accepted⟩ := succeeds_bind_iff.mp accepted
    obtain ⟨description, has_description, -⟩ := succeeds_bind_iff.mp accepted
    rw [here_eq_ok_iff] at object has_items has_name has_description
    obtain rfl := node_eq_ok_iff.mp object
    obtain ⟨entry_doc, has_entry, valid_entry⟩ := succeeds_inner.mp ⟨entry, compiled_entry⟩
    have valid_price := succeeds_innerD.mp ⟨price, compiled_price⟩
    obtain ⟨has_exits, filled⟩ := Node.items_eq_ok_iff.mp has_items
    have valid_exits := (succeeds_compileItems 0 items).mp ⟨exits, compiled_exits⟩
    exact .root has_entry ((filter entry_doc).mp valid_entry)
      (fun w present => (method w).mp (valid_price w present)) has_exits filled
      (fun rule member => (exit rule).mp (valid_exits rule member))
      (Node.succeeds_string.mp ⟨name, has_name⟩)
      (Node.succeeds_stringD.mp ⟨description, has_description⟩)
  · intro doc
    obtain ⟨has_entry, valid_entry, valid_price, has_exits, filled, valid_exits, has_name,
      has_description⟩ := doc
    rename_i n entry_doc items
    obtain ⟨entry, compiled_entry⟩ : Succeeds (inner (compileFilter d d) n "entry") :=
      succeeds_inner.mpr ⟨entry_doc, has_entry, (filter entry_doc).mpr valid_entry⟩
    obtain ⟨price, compiled_price⟩ : Succeeds (innerD (compileMethod d d) n "price" .closing) :=
      succeeds_innerD.mpr fun w present => (method w).mpr (valid_price w present)
    obtain ⟨exits, compiled_exits⟩ : Succeeds (compileItems (compileExit d d) "exits" 0 items) :=
      (succeeds_compileItems 0 items).mpr
        fun rule member => (exit rule).mpr (valid_exits rule member)
    have last : Succeeds (do
        let name ← here (n.string "name")
        let description ← here (n.stringD "description" "")
        return (⟨name, description, entry, price, exits⟩ : Strategy)) :=
      succeeds_bind_bind_ok.mpr ⟨succeeds_here.mpr (Node.succeeds_string.mpr has_name),
        succeeds_here.mpr (Node.succeeds_stringD.mpr has_description)⟩
    refine succeeds_bind_iff.mpr ⟨n, rfl, succeeds_bind_iff.mpr ⟨entry, compiled_entry,
      succeeds_bind_iff.mpr ⟨price, compiled_price, succeeds_bind_iff.mpr ⟨items, ?_,
        succeeds_bind_iff.mpr ⟨exits, compiled_exits, last⟩⟩⟩⟩⟩
    rw [here_eq_ok_iff]
    exact Node.items_eq_ok_iff.mpr ⟨has_exits, filled⟩

end TradingRules.Document
