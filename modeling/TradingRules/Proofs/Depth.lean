import TradingRules.Proofs.Faults

/-!
# Depth bounds

A bound on the depth of nodes cuts a compilation short and does nothing else. A result that is not
cut off is the result under every larger bound. One that is cut off names the bound, and its path
leads to a node of the document just below it.
-/

namespace TradingRules.Document

/-- A node that lies too deep is all that stopped the compilation. -/
def CutOff {α : Type} (r : Except Fault α) : Prop :=
  ∃ path limit, r = .error ⟨path, .tooDeep limit⟩

/-- Two compilations of one document agree, unless the first one was cut off. -/
def Settles {α : Type} (r r' : Except Fault α) : Prop := CutOff r ∨ r = r'

section Steps

variable {α β : Type} {r r' : Except Fault α} {compile compile' : Json → Except Fault α}

theorem Settles.refl (r : Except Fault α) : Settles r r := .inr rfl

theorem Settles.bind {f f' : α → Except Fault β} (first : Settles r r')
    (rest : ∀ x, Settles (f x) (f' x)) : Settles (r >>= f) (r' >>= f') := by
  rcases first with ⟨path, limit, failed⟩ | rfl
  · rw [failed]
    exact .inl ⟨path, limit, rfl⟩
  · cases r with
    | ok x => exact rest x
    | error f => exact .refl _

theorem Settles.under (step : Step) (settles : Settles r r') :
    Settles (under step r) (under step r') := by
  rcases settles with ⟨path, limit, failed⟩ | rfl
  · rw [failed]
    exact .inl ⟨step :: path, limit, rfl⟩
  · exact .refl _

theorem settles_inner (settles : ∀ v, Settles (compile v) (compile' v)) (n : Node) (key : String) :
    Settles (inner compile n key) (inner compile' n key) := by
  apply (Settles.refl _).bind
  intro v
  exact (settles v).under (.key key)

theorem settles_innerD (settles : ∀ v, Settles (compile v) (compile' v)) (n : Node) (key : String)
    (default : α) : Settles (innerD compile n key default) (innerD compile' n key default) := by
  rw [innerD, innerD]
  cases Json.get? n key with
  | none => exact .refl _
  | some v => exact (settles v).under (.key key)

theorem settles_compileItems (settles : ∀ v, Settles (compile v) (compile' v)) (key : String)
    (index : Nat) (items : List Json) :
    Settles (compileItems compile key index items) (compileItems compile' key index items) := by
  induction items generalizing index with
  | nil => exact .refl _
  | cons v rest ih =>
    apply ((settles v).under (.item key index)).bind
    intro x
    apply (ih (index + 1)).bind
    intro xs
    exact .refl _

theorem settles_members (settles : ∀ v, Settles (compile v) (compile' v)) (n : Node) :
    Settles (members compile n) (members compile' n) := by
  apply (Settles.refl _).bind
  intro items
  exact settles_compileItems settles "args" 0 items

end Steps

theorem settles_operands {compile compile' : Json → Except Fault Method}
    (settles : ∀ v, Settles (compile v) (compile' v)) (n : Node) :
    Settles (operands compile n) (operands compile' n) := by
  apply (settles_inner settles n "lhs").bind
  intro lhs
  apply (settles_inner settles n "rhs").bind
  intro rhs
  exact .refl _

section Compilers

variable {limit limit' levels levels' : Nat}

/-- More levels settle what fewer levels do not cut off: each node takes one level from both. -/
theorem compileMethod_settles (more : levels ≤ levels') (v : Json) :
    Settles (compileMethod limit levels v) (compileMethod limit' levels' v) := by
  induction levels generalizing levels' v with
  | zero => exact .inl ⟨[], limit, rfl⟩
  | succ levels ih =>
    obtain ⟨more_levels, rfl⟩ : ∃ k, levels' = k + 1 := ⟨levels' - 1, by omega⟩
    have sub : ∀ w, Settles (compileMethod limit levels w) (compileMethod limit' more_levels w) :=
      ih (by omega)
    rw [compileMethod, compileMethod]
    refine (Settles.refl _).bind fun n => (Settles.refl _).bind fun t => ?_
    cases t with
    | absDiff =>
      exact (settles_inner sub n "lhs").bind fun lhs =>
        (settles_inner sub n "rhs").bind fun rhs => .refl _
    | sma => exact (settles_innerD sub n "source" .closing).bind fun source => .refl _
    | ema => exact (settles_innerD sub n "source" .closing).bind fun source => .refl _
    | _ => exact .refl _

theorem compileFilter_settles (more : levels ≤ levels') (v : Json) :
    Settles (compileFilter limit levels v) (compileFilter limit' levels' v) := by
  induction levels generalizing levels' v with
  | zero => exact .inl ⟨[], limit, rfl⟩
  | succ levels ih =>
    obtain ⟨more_levels, rfl⟩ : ∃ k, levels' = k + 1 := ⟨levels' - 1, by omega⟩
    have sub : ∀ w, Settles (compileFilter limit levels w) (compileFilter limit' more_levels w) :=
      ih (by omega)
    have method : ∀ w,
        Settles (compileMethod limit levels w) (compileMethod limit' more_levels w) :=
      compileMethod_settles (by omega)
    rw [compileFilter, compileFilter]
    refine (Settles.refl _).bind fun n => (Settles.refl _).bind fun t => ?_
    cases t with
    | always b => exact .refl _
    | compare op => exact (settles_operands method n).bind fun _ => .refl _
    | crossAbove => exact (settles_operands method n).bind fun _ => .refl _
    | crossBelow => exact (settles_operands method n).bind fun _ => .refl _
    | between => exact (settles_inner method n "operand").bind fun operand => .refl _
    | all => exact (settles_members sub n).bind fun args => .refl _
    | any => exact (settles_members sub n).bind fun args => .refl _
    | not => exact (settles_inner sub n "arg").bind fun arg => .refl _

theorem compileExit_settles (more : levels ≤ levels') (v : Json) :
    Settles (compileExit limit levels v) (compileExit limit' levels' v) := by
  cases levels with
  | zero => exact .inl ⟨[], limit, rfl⟩
  | succ levels =>
    obtain ⟨more_levels, rfl⟩ : ∃ k, levels' = k + 1 := ⟨levels' - 1, by omega⟩
    have method : ∀ w,
        Settles (compileMethod limit levels w) (compileMethod limit' more_levels w) :=
      compileMethod_settles (by omega)
    have filter : ∀ w,
        Settles (compileFilter limit levels w) (compileFilter limit' more_levels w) :=
      compileFilter_settles (by omega)
    rw [compileExit, compileExit]
    refine (Settles.refl _).bind fun n => (Settles.refl _).bind fun t => ?_
    cases t with
    | takeProfit => exact (settles_innerD method n "price" .closing).bind fun price => .refl _
    | stopLoss => exact (settles_innerD method n "price" .closing).bind fun price => .refl _
    | signal => exact (settles_inner filter n "filter").bind fun f => .refl _

theorem compileStrategy_settles (more : levels ≤ levels') (v : Json) :
    Settles (compileStrategy limit levels v) (compileStrategy limit' levels' v) := by
  cases levels with
  | zero => exact .inl ⟨[], limit, rfl⟩
  | succ levels =>
    obtain ⟨more_levels, rfl⟩ : ∃ k, levels' = k + 1 := ⟨levels' - 1, by omega⟩
    have method : ∀ w,
        Settles (compileMethod limit levels w) (compileMethod limit' more_levels w) :=
      compileMethod_settles (by omega)
    have filter : ∀ w,
        Settles (compileFilter limit levels w) (compileFilter limit' more_levels w) :=
      compileFilter_settles (by omega)
    have exit : ∀ w, Settles (compileExit limit levels w) (compileExit limit' more_levels w) :=
      compileExit_settles (by omega)
    rw [compileStrategy, compileStrategy]
    apply (Settles.refl _).bind
    intro n
    apply (settles_inner filter n "entry").bind
    intro entry
    apply (settles_innerD method n "price" .closing).bind
    intro price
    apply (Settles.refl _).bind
    intro items
    apply (settles_compileItems exit "exits" 0 items).bind
    intro exits
    exact .refl _

end Compilers

/-- A walk that is cut off has used up its levels, one with each step of the path. -/
theorem inspect_cutOff {limit levels bound : Nat} {role : Role} {v : Json} {path : List Step}
    (failed : inspect limit levels role v = .error ⟨path, .tooDeep bound⟩) :
    bound = limit ∧ path.length = levels ∧ ∃ target w, Leads role v path target w := by
  induction levels generalizing role v path with
  | zero =>
    cases failed
    exact ⟨rfl, rfl, role, v, .here⟩
  | succ levels ih =>
    rcases inspect_eq_error failed with ⟨-, holds, -⟩ | ⟨step, category, w, g, nested, fails, same⟩
    · exact absurd rfl (holds.shallow bound)
    · obtain ⟨rest, cause⟩ := g
      cases same
      obtain ⟨named, length, target, u, leads⟩ := ih fails
      exact ⟨named, by rw [List.length_cons, length], target, u, .inside nested leads⟩

/-- The bound on the depth only cuts compilations of `v`: a result that is not cut off is the result
under every larger bound, and one that is cut off names its bound, with a path one step longer that
can be followed in `v`, and no smaller bound lets `v` compile. -/
structure OnlyCuts {α : Type} (v : Json) (compile : (maxDepth : Nat) → Except Fault α) : Prop where
  settled : ∀ d d', d ≤ d' → ¬ CutOff (compile d) → compile d' = compile d
  cut : ∀ d path limit, compile d = .error ⟨path, .tooDeep limit⟩ →
    limit = d ∧ path.length = d + 1 ∧ (∃ w, follow v path = some w) ∧
      ∀ smaller, smaller < d → ¬ Succeeds (compile smaller)

theorem onlyCuts_of_settles {α : Type} {v : Json} {compile : Nat → Except Fault α} {role : Role}
    (settles : ∀ d d', d ≤ d' → Settles (compile d) (compile d'))
    (inspected : ∀ d, verdict (compile d) = inspect d (d + 1) role v) : OnlyCuts v compile := by
  constructor
  · intro d d' le whole
    exact ((settles d d' le).resolve_left whole).symm
  · intro d path limit failed
    have walked : inspect d (d + 1) role v = .error ⟨path, .tooDeep limit⟩ := by
      rw [← inspected, failed, verdict_error]
    obtain ⟨named, length, target, w, leads⟩ := inspect_cutOff walked
    refine ⟨named, length, ⟨w, leads.follow⟩, ?_⟩
    rintro smaller below ⟨x, compiled⟩
    rcases settles smaller d (Nat.le_of_lt below) with ⟨path, limit, cut⟩ | same
    · cases compiled.symm.trans cut
    · cases compiled.symm.trans (same.trans failed)

/-- How deep a node may be only cuts compilations of a document, as a method, as a filter and as a
strategy. -/
theorem compile_onlyCuts (v : Json) :
    OnlyCuts v (fun d => Method.compile d v) ∧ OnlyCuts v (fun d => Filter.compile d v) ∧
      OnlyCuts v (fun d => Strategy.compile d v) := by
  refine ⟨onlyCuts_of_settles ?_ fun d => (inspect_method d (d + 1) v).symm,
    onlyCuts_of_settles ?_ fun d => (inspect_filter d (d + 1) v).symm,
    onlyCuts_of_settles ?_ fun d => (inspect_strategy d (d + 1) v).symm⟩
  · exact fun d d' le => compileMethod_settles (Nat.succ_le_succ le) v
  · exact fun d d' le => compileFilter_settles (Nat.succ_le_succ le) v
  · exact fun d d' le => compileStrategy_settles (Nat.succ_le_succ le) v

/-- A comparison as the second member of a conjunction has operands at depth two: depth one cuts it
off at the left one, and every depth from two on is as good as two. -/
theorem compile_onlyCuts_second_member :
    let close : Json := .object [("type", .string "field"), ("field", .string "close")]
    let below : Json := .object [("type", .string "lt"), ("lhs", close), ("rhs", close)]
    let doc : Json := .object [("type", .string "and"),
      ("args", .array [.object [("type", .string "true")], below])]
    let path : List Step := [.item "args" 1, .key "lhs"]
    Filter.compile 1 doc = .error ⟨path, .tooDeep 1⟩ ∧ path.length = 2 ∧
      (∃ w, follow doc path = some w) ∧ ¬ Succeeds (Filter.compile 0 doc) ∧
      ¬ CutOff (Filter.compile 2 doc) ∧
      ∀ d, 2 ≤ d → Filter.compile d doc = Filter.compile 2 doc := by
  intro close below doc path
  have cut : Filter.compile 1 doc = .error ⟨path, .tooDeep 1⟩ := by rfl
  have compiled : Filter.compile 2 doc =
      .ok (.all [.always true, .compare .lt (.field .close) (.field .close)]) := by rfl
  have whole : ¬ CutOff (Filter.compile 2 doc) := by
    rintro ⟨path, limit, failed⟩
    cases compiled.symm.trans failed
  obtain ⟨-, filter, -⟩ := compile_onlyCuts doc
  obtain ⟨-, length, followed, smaller⟩ := filter.cut 1 path 1 cut
  exact ⟨cut, length, followed, smaller 0 Nat.zero_lt_one, whole,
    fun d le => filter.settled 2 d le whole⟩

end TradingRules.Document
