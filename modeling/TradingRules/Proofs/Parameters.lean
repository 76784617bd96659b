import TradingRules.Document.Strategy
import TradingRules.Proofs.Results

/-!
# Parameters of a node, as conditions on its keys

Each reader of a parameter succeeds just when the key has a value of the right shape. A key that is
absent is a case of its own, and a null is a value like any other.
-/

namespace TradingRules

theorem Named.find?_eq_some {α : Type} [Named α] {s : String} {x : α}
    (found : Named.find? s = some x) : name x = s := by
  simpa using List.find?_some found

theorem Named.exists_find?_iff (α : Type) [Named α] (s : String) :
    (∃ x : α, Named.find? s = some x) ↔ s ∈ Named.choices α := by
  rw [← Option.isSome_iff_exists, Named.find?, List.find?_isSome, Named.choices, List.mem_map]
  simp only [beq_iff_eq]

namespace Document

open Json (get?)

@[simp] theorem here_eq_ok_iff {α : Type} {r : Except Cause α} {x : α} :
    here r = .ok x ↔ r = .ok x := by
  cases r <;> simp [here]

theorem succeeds_here {α : Type} {r : Except Cause α} : Succeeds (here r) ↔ Succeeds r := by
  simp only [Succeeds, here_eq_ok_iff]

@[simp] theorem under_eq_ok_iff {α : Type} {step : Step} {r : Except Fault α} {x : α} :
    under step r = .ok x ↔ r = .ok x := by
  cases r <;> simp [under]

theorem node_eq_ok_iff {v : Json} {n : Node} : node v = .ok n ↔ v = .object n := by
  cases v <;> simp [node, Json.object?]

namespace Node

variable {n : Node} {key : String}

theorem required_eq_ok_iff {v : Json} : n.required key = .ok v ↔ get? n key = some v := by
  rw [required]
  cases get? n key <;> simp

theorem expect_eq_ok_iff {α : Type} {expected : Expected} {r : Option α} {x : α} :
    expect key expected r = .ok x ↔ r = some x := by
  cases r <;> simp [expect]

theorem tag_eq_ok_iff {tag : String} : n.tag = .ok tag ↔ get? n "type" = some (.string tag) := by
  rw [Node.tag]
  cases get? n "type" with
  | none => simp
  | some v => cases v <;> simp [Json.string?]

theorem float?_eq_some_iff {v : Json} {x : Float} :
    v.float? = some x ↔ ∃ number, v = .number number ∧ number.toFloat = x := by
  cases v <;> simp [Json.float?]

theorem string?_eq_some_iff {v : Json} {s : String} : v.string? = some s ↔ v = .string s := by
  cases v <;> simp [Json.string?]

theorem period?_eq_some_iff {v : Json} {p : Nat} :
    period? v = some p ↔ v = .number (.integer p) ∧ 1 ≤ p := by
  rcases v with _ | _ | number | _ | _ | _
  case number =>
    rcases number with m | ⟨x, finite⟩
    · cases m with
      | ofNat m =>
        simp only [period?, Json.nat?, Option.filter_some, Option.ite_none_right_eq_some,
          decide_eq_true_eq, Option.some.injEq, Json.number.injEq, JsonNumber.integer.injEq,
          Int.ofNat_eq_natCast, Int.natCast_inj]
        constructor
        · rintro ⟨positive, rfl⟩
          exact ⟨rfl, positive⟩
        · rintro ⟨rfl, positive⟩
          exact ⟨positive, rfl⟩
      | negSucc m => simp [period?, Json.nat?]
    · simp [period?, Json.nat?]
  all_goals simp [period?, Json.nat?]

/-- A required parameter is the value of its key, read as it should be. -/
theorem expect_required_eq_ok_iff {α : Type} {expected : Expected} {f : Json → Option α} {x : α} :
    (do expect key expected (f (← n.required key))) = .ok x ↔
      ∃ v, get? n key = some v ∧ f v = some x := by
  simp only [bind_eq_ok_iff, required_eq_ok_iff, expect_eq_ok_iff]

theorem number_eq_ok_iff {x : Float} :
    n.number key = .ok x ↔ ∃ number, get? n key = some (.number number) ∧ number.toFloat = x := by
  rw [number, expect_required_eq_ok_iff]
  simp only [float?_eq_some_iff]
  constructor
  · rintro ⟨_, present, number, rfl, same⟩
    exact ⟨number, present, same⟩
  · rintro ⟨number, present, same⟩
    exact ⟨_, present, number, rfl, same⟩

theorem period_eq_ok_iff {p : Nat} :
    n.period key = .ok p ↔ get? n key = some (.number (.integer p)) ∧ 1 ≤ p := by
  rw [period, expect_required_eq_ok_iff]
  simp only [period?_eq_some_iff]
  constructor
  · rintro ⟨_, present, rfl, positive⟩
    exact ⟨present, positive⟩
  · rintro ⟨present, positive⟩
    exact ⟨_, present, rfl, positive⟩

theorem string_eq_ok_iff {s : String} : n.string key = .ok s ↔ get? n key = some (.string s) := by
  rw [string, expect_required_eq_ok_iff]
  simp only [string?_eq_some_iff]
  exact exists_eq_right

theorem choice_eq_ok_iff {α : Type} [Named α] {x : α} :
    n.choice α key = .ok x ↔ ∃ s, get? n key = some (.string s) ∧ Named.find? s = some x := by
  simp only [choice, bind_eq_ok_iff, string_eq_ok_iff, expect_eq_ok_iff]

theorem items_eq_ok_iff {expected : Expected} {vs : List Json} :
    n.items key expected = .ok vs ↔ get? n key = some (.array vs) ∧ vs ≠ [] := by
  have filled : ∀ v : Json, v.array?.filter (!·.isEmpty) = some vs ↔ v = .array vs ∧ vs ≠ [] := by
    intro v
    cases v with
    | array items =>
      cases items with
      | nil =>
        constructor
        · intro none_left
          cases none_left
        · rintro ⟨same, some_item⟩
          cases same
          exact absurd rfl some_item
      | cons item rest =>
        simp only [Json.array?, Option.filter_some, List.isEmpty_cons, Bool.not_false, if_true,
          Option.some.injEq, Json.array.injEq]
        constructor
        · rintro rfl
          exact ⟨rfl, List.cons_ne_nil item rest⟩
        · exact fun same => same.1
    | _ => simp [Json.array?]
  rw [items, expect_required_eq_ok_iff]
  simp only [filled]
  constructor
  · rintro ⟨_, present, rfl, some_item⟩
    exact ⟨present, some_item⟩
  · rintro ⟨present, some_item⟩
    exact ⟨_, present, rfl, some_item⟩

theorem numberD_eq_ok_iff {default x : Float} :
    n.numberD key default = .ok x ↔
      get? n key = none ∧ x = default ∨ ∃ v, get? n key = some v ∧ v.float? = some x := by
  rw [numberD]
  cases get? n key with
  | none => simp [eq_comm]
  | some v => simp [expect_eq_ok_iff]

theorem stringD_eq_ok_iff {default s : String} :
    n.stringD key default = .ok s ↔
      get? n key = none ∧ s = default ∨ ∃ v, get? n key = some v ∧ v.string? = some s := by
  rw [stringD]
  cases get? n key with
  | none => simp [eq_comm]
  | some v => simp [expect_eq_ok_iff]

theorem periodD_eq_ok_iff {default p : Nat} :
    n.periodD key default = .ok p ↔
      get? n key = none ∧ p = default ∨ get? n key = some (.number (.integer p)) ∧ 1 ≤ p := by
  rw [periodD]
  cases get? n key with
  | none => simp [eq_comm]
  | some v => simp [expect_eq_ok_iff, period?_eq_some_iff]

variable (n key)

/-- The key has a number. -/
def HasNumber : Prop := ∃ number, get? n key = some (.number number)

/-- The key has a whole number from 1 on. -/
def HasPeriod : Prop := ∃ p : Nat, get? n key = some (.number (.integer p)) ∧ 1 ≤ p

/-- The key has a string. -/
def HasString : Prop := ∃ s, get? n key = some (.string s)

/-- The key has one of the names of a vocabulary. -/
def HasChoice (α : Type) [Named α] : Prop :=
  ∃ s, get? n key = some (.string s) ∧ s ∈ Named.choices α

/-- A period is the value of the key, or a default if the key is absent. -/
def PeriodOr (default p : Nat) : Prop :=
  get? n key = none ∧ p = default ∨ get? n key = some (.number (.integer p)) ∧ 1 ≤ p

variable {n key}

theorem succeeds_number : Succeeds (n.number key) ↔ n.HasNumber key := by
  simp only [Succeeds, number_eq_ok_iff]
  exact ⟨fun ⟨_, number, present, _⟩ => ⟨number, present⟩,
    fun ⟨number, present⟩ => ⟨_, number, present, rfl⟩⟩

theorem succeeds_period : Succeeds (n.period key) ↔ n.HasPeriod key := by
  simp only [Succeeds, period_eq_ok_iff, HasPeriod]

theorem succeeds_string : Succeeds (n.string key) ↔ n.HasString key := by
  simp only [Succeeds, string_eq_ok_iff, HasString]

theorem succeeds_choice (α : Type) [Named α] :
    Succeeds (n.choice α key) ↔ n.HasChoice key α := by
  simp only [Succeeds, choice_eq_ok_iff, HasChoice, ← Named.exists_find?_iff]
  exact ⟨fun ⟨x, s, present, found⟩ => ⟨s, present, x, found⟩,
    fun ⟨s, present, x, found⟩ => ⟨x, s, present, found⟩⟩

theorem succeeds_numberD {default : Float} :
    Succeeds (n.numberD key default) ↔ ∀ v, get? n key = some v → ∃ number, v = .number number := by
  rw [numberD]
  cases get? n key with
  | none => simp
  | some v =>
    simp only [Succeeds, expect_eq_ok_iff, float?_eq_some_iff, Option.some.injEq, forall_eq']
    exact ⟨fun ⟨_, number, same, _⟩ => ⟨number, same⟩, fun ⟨number, same⟩ => ⟨_, number, same, rfl⟩⟩

theorem succeeds_stringD {default : String} :
    Succeeds (n.stringD key default) ↔ ∀ v, get? n key = some v → ∃ s, v = .string s := by
  rw [stringD]
  cases get? n key with
  | none => simp
  | some v =>
    simp only [Succeeds, expect_eq_ok_iff, string?_eq_some_iff, Option.some.injEq, forall_eq']

end Node

section Nodes

variable {α β : Type} {n : Node} {key : String}

theorem tagOf_eq_ok_iff [Named α] {category : Category} {t : α} :
    tagOf α category n = .ok t ↔
      ∃ tag, get? n "type" = some (.string tag) ∧ Named.find? tag = some t := by
  simp only [tagOf, bind_eq_ok_iff, Node.tag_eq_ok_iff]
  refine exists_congr fun tag => and_congr_right fun _ => ?_
  cases (Named.find? tag : Option α) <;> simp

/-- A node inside another one compiles under a key that is present. -/
theorem inner_eq_ok_iff {compile : Json → Except Fault α} {x : α} :
    inner compile n key = .ok x ↔ ∃ v, get? n key = some v ∧ compile v = .ok x := by
  simp only [inner, bind_eq_ok_iff, here_eq_ok_iff, Node.required_eq_ok_iff, under_eq_ok_iff]

theorem succeeds_inner {compile : Json → Except Fault α} :
    Succeeds (inner compile n key) ↔ ∃ v, get? n key = some v ∧ Succeeds (compile v) := by
  simp only [Succeeds, inner_eq_ok_iff]
  exact ⟨fun ⟨x, v, present, compiled⟩ => ⟨v, present, x, compiled⟩,
    fun ⟨v, present, x, compiled⟩ => ⟨x, v, present, compiled⟩⟩

theorem innerD_eq_ok_iff {compile : Json → Except Fault α} {default x : α} :
    innerD compile n key default = .ok x ↔
      get? n key = none ∧ x = default ∨ ∃ v, get? n key = some v ∧ compile v = .ok x := by
  rw [innerD]
  cases get? n key with
  | none => simp [eq_comm]
  | some v => simp

theorem succeeds_innerD {compile : Json → Except Fault α} {default : α} :
    Succeeds (innerD compile n key default) ↔ ∀ v, get? n key = some v → Succeeds (compile v) := by
  rw [innerD]
  cases get? n key with
  | none => simp
  | some v => simp only [Succeeds, under_eq_ok_iff, Option.some.injEq, forall_eq']

theorem succeeds_compileItems {compile : α → Except Fault β} {name : String} (index : Nat)
    (vs : List α) :
    Succeeds (compileItems compile name index vs) ↔ ∀ v ∈ vs, Succeeds (compile v) := by
  induction vs generalizing index with
  | nil => simp [compileItems]
  | cons v rest ih =>
    simp only [compileItems, pure_eq_ok]
    rw [succeeds_bind_and (fun x => succeeds_bind_ok), ih, List.forall_mem_cons]
    simp only [Succeeds, under_eq_ok_iff]

/-- Every compiled item comes from one of the items, and there are as many. -/
theorem compileItems_eq_ok {compile : α → Except Fault β} {name : String} {index : Nat}
    {vs : List α} {xs : List β} (compiled : compileItems compile name index vs = .ok xs) :
    xs.length = vs.length ∧ ∀ x ∈ xs, ∃ v ∈ vs, compile v = .ok x := by
  induction vs generalizing index xs with
  | nil =>
    cases compiled
    simp
  | cons v rest ih =>
    simp only [compileItems, bind_eq_ok_iff, under_eq_ok_iff, pure_eq_ok,
      Except.ok.injEq] at compiled
    obtain ⟨x, first, later, others, rfl⟩ := compiled
    obtain ⟨length, from_items⟩ := ih others
    refine ⟨by simp [length], ?_⟩
    simp only [List.mem_cons, exists_eq_or_imp, forall_eq_or_imp]
    exact ⟨.inl first, fun y member => .inr (from_items y member)⟩

end Nodes

end Document

end TradingRules
