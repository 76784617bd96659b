import TradingRules.Proofs.Faults
import TradingRules.Proofs.Grammar

/-!
# Normal forms of documents

A document says the same as another one if both keep the same when all that does not matter is left
out: of a node, the tag and the parameters that its tag reads, in the order of the table, with what
is left out filled in, real numbers as bits and periods as whole numbers. The tree a document
compiles to has a normal form too, which it shares with the document and with no other tree; so
documents compile to one tree just when they say the same.
-/

namespace TradingRules

namespace Document

open Json (get?)

/-- What is left of a document. -/
inductive NormalForm where
  | whole (n : Nat)
  | real (bits : UInt64)
  | text (s : String)
  | list (items : List NormalForm)
  | node (tag : Option String) (parameters : List (String × NormalForm))
  /-- Stands for a value that no compiler accepts. -/
  | unusable

namespace NormalForm

def closing : NormalForm := .node (some "field") [("field", .text "close")]

/-- What a parameter that is left out stands for. -/
def leftOut : (key : String) → NormalForm
  | "source" => closing
  | "price" => closing
  | "multiplier" => .real (2.0 : Float).toBits
  | "fast" => .whole 12
  | "slow" => .whole 26
  | "signal" => .whole 9
  | "description" => .text ""
  | _ => .unusable

end NormalForm

def Kind.normalForm (v : Json) : Kind → NormalForm
  | number => v.float?.elim .unusable fun x => .real x.toBits
  | period => v.nat?.elim .unusable .whole
  | string => v.string?.elim .unusable .text
  | choice _ => v.string?.elim .unusable .text

/-- The parameter that a check looks at, if it looks at one. -/
def Check.parameter? (n : Node) : Check → Option (String × NormalForm)
  | required key kind => some (key, (get? n key).elim .unusable kind.normalForm)
  | optional key kind => some (key, (get? n key).elim (.leftOut key) kind.normalForm)
  | fastBelowSlow => none
  | lowerNotAboveUpper => none

/-- The tag of a node, where its role calls for one. -/
def Role.tag? (n : Node) : Role → Option String
  | .expression _ => (get? n "type").bind Json.string?
  | .strategy => none

theorem sizeOf_of_get? {n : Node} {key : String} {v : Json} (present : get? n key = some v) :
    sizeOf v < sizeOf n := by
  induction n with
  | nil => cases present
  | cons field rest ih =>
    obtain ⟨k, w⟩ := field
    rw [get?] at present
    simp only [List.cons.sizeOf_spec, Prod.mk.sizeOf_spec]
    split at present
    · cases present
      omega
    · have := ih present
      omega

/-- The normal form of a document in a role. -/
def normalForm (role : Role) : Json → NormalForm
  | .object n =>
    match role.shape n with
    | .error _ => .unusable
    | .ok shape =>
      let expressions := shape.slots.map fun slot =>
        (slot.key,
          match _ : get? n slot.key with
          | none => .leftOut slot.key
          | some v =>
            match slot.form, v with
            | .several _, .array items =>
              .list (items.attach.map fun w => normalForm (.expression slot.category) w.1)
            | _, v => normalForm (.expression slot.category) v)
      .node (role.tag? n) (expressions ++ shape.checks.filterMap (Check.parameter? n))
  | _ => .unusable
termination_by v => sizeOf v
decreasing_by
  · have item := List.sizeOf_lt_of_mem w.2
    have inside := sizeOf_of_get? ‹_›
    simp only [Json.array.sizeOf_spec, Json.object.sizeOf_spec] at inside ⊢
    omega
  · have inside := sizeOf_of_get? ‹_›
    simp only [Json.object.sizeOf_spec] at inside ⊢
    omega

/-- What a slot of a node holds. -/
def Slot.normalForm (n : Node) (slot : Slot) : NormalForm :=
  match get? n slot.key with
  | none => .leftOut slot.key
  | some v =>
    match slot.form, v with
    | .several _, .array items =>
      .list (items.map (Document.normalForm (.expression slot.category)))
    | _, v => Document.normalForm (.expression slot.category) v

theorem normalForm_object {role : Role} {n : Node} {shape : Shape}
    (shaped : role.shape n = .ok shape) :
    normalForm role (.object n) = .node (role.tag? n)
      (shape.slots.map (fun slot => (slot.key, slot.normalForm n)) ++
        shape.checks.filterMap (Check.parameter? n)) := by
  rw [normalForm, shaped]
  simp only
  congr 2
  apply List.map_congr_left
  intro slot _
  congr 1
  rw [Slot.normalForm]
  split
  · rename_i absent
    simp only [absent]
  · rename_i v present
    simp only [present]
    -- The list of items is the only place where the recursion shows.
    cases slot.form <;> cases v <;> simp

end Document

open Document (MethodTag FilterTag ExitTag NormalForm)
open Document (find?_methodTag find?_filterTag find?_exitTag)

section Trees

/-- The normal form of the documents that compile to a tree. -/
def Method.normalForm : Method → NormalForm
  | value x => .node (some (name MethodTag.value)) [("value", .real x.toBits)]
  | field f => .node (some (name MethodTag.field)) [("field", .text (name f))]
  | absDiff lhs rhs => .node (some (name MethodTag.absDiff))
    [("lhs", lhs.normalForm), ("rhs", rhs.normalForm)]
  | atr period => .node (some (name MethodTag.atr)) [("period", .whole period)]
  | sma period source => .node (some (name MethodTag.sma))
    [("source", source.normalForm), ("period", .whole period)]
  | ema period source => .node (some (name MethodTag.ema))
    [("source", source.normalForm), ("period", .whole period)]
  | bollinger period multiplier output => .node (some (name MethodTag.bollinger))
    [("period", .whole period), ("multiplier", .real multiplier.toBits),
      ("output", .text (name output))]
  | macd fast slow signal output => .node (some (name MethodTag.macd))
    [("fast", .whole fast), ("slow", .whole slow), ("signal", .whole signal),
      ("output", .text (name output))]
  | stochastic kPeriod dPeriod output => .node (some (name MethodTag.stochastic))
    [("k_period", .whole kPeriod), ("d_period", .whole dPeriod), ("output", .text (name output))]

mutual

def Filter.normalForm : Filter → NormalForm
  | .always b => .node (some (name (FilterTag.always b))) []
  | .compare op lhs rhs => .node (some (name (FilterTag.compare op)))
    [("lhs", lhs.normalForm), ("rhs", rhs.normalForm)]
  | .crossAbove lhs rhs => .node (some (name FilterTag.crossAbove))
    [("lhs", lhs.normalForm), ("rhs", rhs.normalForm)]
  | .crossBelow lhs rhs => .node (some (name FilterTag.crossBelow))
    [("lhs", lhs.normalForm), ("rhs", rhs.normalForm)]
  | .between operand lower upper => .node (some (name FilterTag.between))
    [("operand", operand.normalForm), ("lower", .real lower.toBits), ("upper", .real upper.toBits)]
  | .all args => .node (some (name FilterTag.all)) [("args", .list (Filter.normalForms args))]
  | .any args => .node (some (name FilterTag.any)) [("args", .list (Filter.normalForms args))]
  | .not arg => .node (some (name FilterTag.not)) [("arg", arg.normalForm)]

def Filter.normalForms : List Filter → List NormalForm
  | [] => []
  | f :: rest => f.normalForm :: Filter.normalForms rest

end

def ExitRule.normalForm : ExitRule → NormalForm
  | takeProfit target price => .node (some (name ExitTag.takeProfit))
    [("price", price.normalForm), ("target", .real target.toBits)]
  | stopLoss target price => .node (some (name ExitTag.stopLoss))
    [("price", price.normalForm), ("target", .real target.toBits)]
  | signal filter => .node (some (name ExitTag.signal)) [("filter", filter.normalForm)]

def Strategy.normalForm (s : Strategy) : NormalForm :=
  .node none [("entry", s.entry.normalForm), ("price", s.price.normalForm),
    ("exits", .list (s.exits.map ExitRule.normalForm)), ("name", .text s.name),
    ("description", .text s.description)]

theorem Filter.normalForms_eq_map (args : List Filter) :
    Filter.normalForms args = args.map Filter.normalForm := by
  induction args with
  | nil => rfl
  | cons f rest ih => rw [normalForms, ih, List.map_cons]

end Trees

/-! ## No two trees share a normal form -/

section Injectivity

/-- Values that are found by their names have different names. -/
theorem Named.name_injective {α : Type} [Named α] (found : ∀ x : α, Named.find? (name x) = some x) :
    Function.Injective (name : α → String) := by
  intro x y same
  have both := found x
  rw [same, found y] at both
  exact (Option.some.inj both).symm

theorem Field.name_injective : Function.Injective (name : Field → String) :=
  Named.name_injective fun f => by cases f <;> rfl

theorem Band.name_injective : Function.Injective (name : Band → String) :=
  Named.name_injective fun output => by cases output <;> rfl

theorem MacdOutput.name_injective : Function.Injective (name : MacdOutput → String) :=
  Named.name_injective fun output => by cases output <;> rfl

theorem StochasticOutput.name_injective : Function.Injective (name : StochasticOutput → String) :=
  Named.name_injective fun output => by cases output <;> rfl

theorem Float.toBits_injective : Function.Injective Float.toBits := by
  rintro ⟨⟨bits, valid⟩⟩ ⟨⟨other, also⟩⟩ same
  cases show bits = other from same
  rfl

theorem Document.NormalForm.tag_inj {α : Type} [Named α]
    (found : ∀ t : α, Named.find? (name t) = some t) {t t' : α}
    {parameters parameters' : List (String × NormalForm)}
    (same : node (some (name t)) parameters = node (some (name t')) parameters') : t = t' := by
  injection same with tags
  exact Named.name_injective found (Option.some.inj tags)

theorem Method.normalForm_injective : Function.Injective Method.normalForm := by
  intro m m' same
  induction m generalizing m' with
  | absDiff lhs rhs lhs_ih rhs_ih =>
    cases m' <;> cases NormalForm.tag_inj find?_methodTag same
    simp only [normalForm, NormalForm.node.injEq, List.cons.injEq, Prod.mk.injEq] at same
    obtain ⟨-, ⟨-, lhs_same⟩, ⟨-, rhs_same⟩, -⟩ := same
    rw [lhs_ih lhs_same, rhs_ih rhs_same]
  | sma period source ih | ema period source ih =>
    cases m' <;> cases NormalForm.tag_inj find?_methodTag same
    simp only [normalForm, NormalForm.node.injEq, List.cons.injEq, Prod.mk.injEq,
      NormalForm.whole.injEq] at same
    obtain ⟨-, ⟨-, source_same⟩, ⟨-, rfl⟩, -⟩ := same
    rw [ih source_same]
  | _ =>
    cases m' <;> cases NormalForm.tag_inj find?_methodTag same
    simp only [normalForm, NormalForm.node.injEq, List.cons.injEq, Prod.mk.injEq,
      NormalForm.whole.injEq, NormalForm.real.injEq, NormalForm.text.injEq,
      Float.toBits_injective.eq_iff, Field.name_injective.eq_iff, Band.name_injective.eq_iff,
      MacdOutput.name_injective.eq_iff, StochasticOutput.name_injective.eq_iff, true_and,
      and_true] at same
    simp only [same]

mutual

theorem Filter.eq_of_normalForm_eq : (f g : Filter) → f.normalForm = g.normalForm → f = g
  | .always b, g, same => by
    cases g <;> cases NormalForm.tag_inj find?_filterTag same
    rfl
  | .compare op lhs rhs, g, same | .crossAbove lhs rhs, g, same | .crossBelow lhs rhs, g, same => by
    cases g <;> cases NormalForm.tag_inj find?_filterTag same
    simp only [Filter.normalForm, NormalForm.node.injEq, List.cons.injEq, Prod.mk.injEq,
      Method.normalForm_injective.eq_iff] at same
    obtain ⟨-, ⟨-, rfl⟩, ⟨-, rfl⟩, -⟩ := same
    rfl
  | .between operand lower upper, g, same => by
    cases g <;> cases NormalForm.tag_inj find?_filterTag same
    simp only [Filter.normalForm, NormalForm.node.injEq, List.cons.injEq, Prod.mk.injEq,
      Method.normalForm_injective.eq_iff, NormalForm.real.injEq,
      Float.toBits_injective.eq_iff] at same
    obtain ⟨-, ⟨-, rfl⟩, ⟨-, rfl⟩, ⟨-, rfl⟩, -⟩ := same
    rfl
  | .all args, g, same | .any args, g, same => by
    cases g <;> cases NormalForm.tag_inj find?_filterTag same
    simp only [Filter.normalForm, NormalForm.node.injEq, List.cons.injEq, Prod.mk.injEq,
      NormalForm.list.injEq] at same
    obtain ⟨-, ⟨-, args_same⟩, -⟩ := same
    rw [Filter.eq_of_normalForms_eq args _ args_same]
  | .not arg, g, same => by
    cases g <;> cases NormalForm.tag_inj find?_filterTag same
    simp only [Filter.normalForm, NormalForm.node.injEq, List.cons.injEq, Prod.mk.injEq] at same
    obtain ⟨-, ⟨-, arg_same⟩, -⟩ := same
    rw [Filter.eq_of_normalForm_eq arg _ arg_same]

theorem Filter.eq_of_normalForms_eq : (fs gs : List Filter) →
    Filter.normalForms fs = Filter.normalForms gs → fs = gs
  | [], [], _ => rfl
  | f :: fs, g :: gs, same => by
    obtain ⟨head, tail⟩ := List.cons.inj same
    rw [Filter.eq_of_normalForm_eq f g head, Filter.eq_of_normalForms_eq fs gs tail]

end

theorem Filter.normalForm_injective : Function.Injective Filter.normalForm :=
  Filter.eq_of_normalForm_eq

theorem ExitRule.normalForm_injective : Function.Injective ExitRule.normalForm := by
  intro rule rule' same
  cases rule <;> cases rule' <;> cases NormalForm.tag_inj find?_exitTag same
  case signal.signal.refl f f' =>
    simp only [normalForm, NormalForm.node.injEq, List.cons.injEq, Prod.mk.injEq,
      Filter.normalForm_injective.eq_iff] at same
    rw [same.2.1.2]
  all_goals
    simp only [normalForm, NormalForm.node.injEq, List.cons.injEq, Prod.mk.injEq,
      Method.normalForm_injective.eq_iff, NormalForm.real.injEq,
      Float.toBits_injective.eq_iff] at same
    obtain ⟨-, ⟨-, rfl⟩, ⟨-, rfl⟩, -⟩ := same
    rfl

theorem Strategy.normalForm_injective : Function.Injective Strategy.normalForm := by
  rintro ⟨name, description, entry, price, exits⟩ ⟨name', description', entry', price', exits'⟩ same
  simp only [normalForm, NormalForm.node.injEq, List.cons.injEq, Prod.mk.injEq,
    Method.normalForm_injective.eq_iff, Filter.normalForm_injective.eq_iff, NormalForm.list.injEq,
    NormalForm.text.injEq, List.map_inj_right ExitRule.normalForm_injective] at same
  obtain ⟨-, ⟨-, rfl⟩, ⟨-, rfl⟩, ⟨-, rfl⟩, ⟨-, rfl⟩, ⟨-, rfl⟩, -⟩ := same
  rfl

end Injectivity

/-! ## A document and its tree share their normal form -/

namespace Document

open Json (get?)

section Readings

variable {n : Node} {key : String} {form : NormalForm}

theorem parameter?_required {kind : Kind}
    (read : ∃ v, get? n key = some v ∧ kind.normalForm v = form) :
    Check.parameter? n (.required key kind) = some (key, form) := by
  obtain ⟨v, present, rfl⟩ := read
  rw [Check.parameter?, present, Option.elim_some]

theorem parameter?_optional {kind : Kind}
    (read : get? n key = none ∧ NormalForm.leftOut key = form ∨
      ∃ v, get? n key = some v ∧ kind.normalForm v = form) :
    Check.parameter? n (.optional key kind) = some (key, form) := by
  rw [Check.parameter?]
  rcases read with ⟨absent, rfl⟩ | ⟨v, present, rfl⟩
  · rw [absent, Option.elim_none]
  · rw [present, Option.elim_some]

theorem parameter?_number {x : Float} (read : n.number key = .ok x) :
    Check.parameter? n (.required key .number) = some (key, .real x.toBits) := by
  obtain ⟨number, present, rfl⟩ := Node.number_eq_ok_iff.mp read
  exact parameter?_required ⟨_, present, rfl⟩

theorem parameter?_period {p : Nat} (read : n.period key = .ok p) :
    Check.parameter? n (.required key .period) = some (key, .whole p) := by
  obtain ⟨present, -⟩ := Node.period_eq_ok_iff.mp read
  exact parameter?_required ⟨_, present, rfl⟩

theorem parameter?_string {s : String} (read : n.string key = .ok s) :
    Check.parameter? n (.required key .string) = some (key, .text s) :=
  parameter?_required ⟨_, Node.string_eq_ok_iff.mp read, rfl⟩

theorem parameter?_choice {α : Type} [Named α] {names : List String} {x : α}
    (read : n.choice α key = .ok x) :
    Check.parameter? n (.required key (.choice names)) = some (key, .text (name x)) := by
  obtain ⟨s, present, found⟩ := Node.choice_eq_ok_iff.mp read
  rw [← Named.find?_eq_some found] at present
  exact parameter?_required ⟨_, present, rfl⟩

theorem parameter?_numberD {default x : Float} (read : n.numberD key default = .ok x)
    (filled : NormalForm.leftOut key = .real default.toBits) :
    Check.parameter? n (.optional key .number) = some (key, .real x.toBits) := by
  apply parameter?_optional
  rcases Node.numberD_eq_ok_iff.mp read with ⟨absent, rfl⟩ | ⟨v, present, reads⟩
  · exact .inl ⟨absent, filled⟩
  · exact .inr ⟨v, present, by rw [Kind.normalForm, reads, Option.elim_some]⟩

theorem parameter?_periodD {default p : Nat} (read : n.periodD key default = .ok p)
    (filled : NormalForm.leftOut key = .whole default) :
    Check.parameter? n (.optional key .period) = some (key, .whole p) := by
  apply parameter?_optional
  rcases Node.periodD_eq_ok_iff.mp read with ⟨absent, rfl⟩ | ⟨present, -⟩
  · exact .inl ⟨absent, filled⟩
  · exact .inr ⟨_, present, rfl⟩

theorem parameter?_stringD {default s : String} (read : n.stringD key default = .ok s)
    (filled : NormalForm.leftOut key = .text default) :
    Check.parameter? n (.optional key .string) = some (key, .text s) := by
  apply parameter?_optional
  rcases Node.stringD_eq_ok_iff.mp read with ⟨absent, rfl⟩ | ⟨v, present, reads⟩
  · exact .inl ⟨absent, filled⟩
  · exact .inr ⟨v, present, by rw [Kind.normalForm, reads, Option.elim_some]⟩

end Readings

section Slots

variable {α : Type} {n : Node} {key : String} {compile : Json → Except Fault α}
  {category : Category} {form : α → NormalForm}
  (shared : ∀ {v x}, compile v = .ok x → Document.normalForm (.expression category) v = form x)

include shared

theorem Slot.normalForm_inner {x : α} (read : inner compile n key = .ok x) :
    Slot.normalForm n ⟨key, category, .required⟩ = form x := by
  obtain ⟨v, present, compiled⟩ := inner_eq_ok_iff.mp read
  rw [Slot.normalForm, present]
  exact shared compiled

theorem Slot.normalForm_innerD {default x : α} (read : innerD compile n key default = .ok x)
    (filled : NormalForm.leftOut key = form default) :
    Slot.normalForm n ⟨key, category, .optional⟩ = form x := by
  rw [Slot.normalForm]
  rcases innerD_eq_ok_iff.mp read with ⟨absent, rfl⟩ | ⟨v, present, compiled⟩
  · rw [absent]
    exact filled
  · rw [present]
    exact shared compiled

theorem map_normalForm_of_compileItems {index : Nat} {items : List Json} {xs : List α}
    (read : compileItems compile key index items = .ok xs) :
    items.map (Document.normalForm (.expression category)) = xs.map form := by
  induction items generalizing index xs with
  | nil =>
    cases read
    rfl
  | cons v rest ih =>
    simp only [compileItems, bind_eq_ok_iff, under_eq_ok_iff, pure_eq_ok, Except.ok.injEq] at read
    obtain ⟨x, first, later, others, rfl⟩ := read
    rw [List.map_cons, List.map_cons, shared first, ih others]

theorem Slot.normalForm_several {expected : Expected} {items : List Json} {xs : List α}
    (listed : n.items key expected = .ok items)
    (read : compileItems compile key 0 items = .ok xs) :
    Slot.normalForm n ⟨key, category, .several expected⟩ = .list (xs.map form) := by
  obtain ⟨present, -⟩ := Node.items_eq_ok_iff.mp listed
  rw [Slot.normalForm, present]
  exact congrArg NormalForm.list (map_normalForm_of_compileItems shared read)

end Slots

section Compilers

variable {limit levels : Nat} {v : Json}

theorem normalForm_tagged {α : Type} [Named α] {category : Category} {n : Node} {t : α}
    {shape : Shape} (tagged : get? n "type" = some (.string (name t)))
    (shaped : (Role.expression category).shape n = .ok shape) :
    normalForm (.expression category) (.object n) = .node (some (name t))
      (shape.slots.map (fun slot => (slot.key, slot.normalForm n)) ++
        shape.checks.filterMap (Check.parameter? n)) := by
  rw [normalForm_object shaped, Role.tag?, tagged]
  rfl

theorem normalForm_of_compileMethod {m : Method} (compiled : compileMethod limit levels v = .ok m) :
    normalForm (.expression .method) v = m.normalForm := by
  induction levels generalizing v m with
  | zero => cases compiled
  | succ levels ih =>
    rw [compileMethod, entered_eq_ok_iff] at compiled
    obtain ⟨n, tag, t, rfl, tagged, found, read⟩ := compiled
    obtain rfl := Named.find?_eq_some found
    have shaped : (Role.expression .method).shape n = .ok t.shape :=
      Role.shape_eq_ok_iff.mpr ⟨t, tagged, rfl⟩
    rw [normalForm_tagged tagged shaped]
    cases t <;> simp only [bind_eq_ok_iff, here_eq_ok_iff, pure_eq_ok, Except.ok.injEq] at read
    case value =>
      obtain ⟨x, value_read, rfl⟩ := read
      simp only [MethodTag.shape, List.map_nil, List.filterMap_cons,
        parameter?_number value_read]
      rfl
    case field =>
      obtain ⟨f, field_read, rfl⟩ := read
      simp only [MethodTag.shape, List.map_nil, List.filterMap_cons,
        parameter?_choice field_read]
      rfl
    case absDiff =>
      obtain ⟨lhs, lhs_read, rhs, rhs_read, rfl⟩ := read
      simp only [MethodTag.shape, List.map_cons, Slot.normalForm_inner ih lhs_read,
        Slot.normalForm_inner ih rhs_read]
      rfl
    case atr =>
      obtain ⟨period, period_read, rfl⟩ := read
      simp only [MethodTag.shape, List.map_nil, List.filterMap_cons,
        parameter?_period period_read]
      rfl
    case sma | ema =>
      obtain ⟨source, source_read, period, period_read, rfl⟩ := read
      simp only [MethodTag.shape, List.map_cons, List.filterMap_cons,
        Slot.normalForm_innerD ih source_read rfl, parameter?_period period_read]
      rfl
    case bollinger =>
      simp only [bollinger, bind_eq_ok_iff, pure_eq_ok, Except.ok.injEq] at read
      obtain ⟨period, period_read, multiplier, multiplier_read, output, output_read, rfl⟩ := read
      simp only [MethodTag.shape, List.map_nil, List.filterMap_cons, parameter?_period period_read,
        parameter?_numberD multiplier_read rfl, parameter?_choice output_read]
      rfl
    case macd =>
      simp only [macd, bind_eq_ok_iff, pure_eq_ok] at read
      obtain ⟨fast, fast_read, slow, slow_read, signal, signal_read, ordered⟩ := read
      split at ordered
      · cases ordered
      simp only [bind_eq_ok_iff, Except.ok.injEq] at ordered
      obtain ⟨output, output_read, rfl⟩ := ordered
      simp only [MethodTag.shape, List.map_nil, List.filterMap_cons,
        parameter?_periodD fast_read rfl, parameter?_periodD slow_read rfl,
        parameter?_periodD signal_read rfl, parameter?_choice output_read]
      rfl
    case stochastic =>
      simp only [stochastic, bind_eq_ok_iff, pure_eq_ok, Except.ok.injEq] at read
      obtain ⟨kPeriod, k_read, dPeriod, d_read, output, output_read, rfl⟩ := read
      simp only [MethodTag.shape, List.map_nil, List.filterMap_cons, parameter?_period k_read,
        parameter?_period d_read, parameter?_choice output_read]
      rfl

theorem normalForm_of_compileFilter {f : Filter} (compiled : compileFilter limit levels v = .ok f) :
    normalForm (.expression .filter) v = f.normalForm := by
  induction levels generalizing v f with
  | zero => cases compiled
  | succ levels ih =>
    rw [compileFilter, entered_eq_ok_iff] at compiled
    obtain ⟨n, tag, t, rfl, tagged, found, read⟩ := compiled
    obtain rfl := Named.find?_eq_some found
    have shaped : (Role.expression .filter).shape n = .ok t.shape :=
      Role.shape_eq_ok_iff.mpr ⟨t, tagged, rfl⟩
    have method {w : Json} {m : Method} (compiled : compileMethod limit levels w = .ok m) :
        normalForm (.expression .method) w = m.normalForm := normalForm_of_compileMethod compiled
    rw [normalForm_tagged tagged shaped]
    cases t <;> simp only [operands, members, bind_assoc, bind_eq_ok_iff, here_eq_ok_iff,
      pure_eq_ok, Except.ok.injEq] at read
    case always b =>
      cases read
      rfl
    case compare | crossAbove | crossBelow =>
      obtain ⟨lhs, lhs_read, rhs, rhs_read, _, rfl, rfl⟩ := read
      simp only [FilterTag.shape, List.map_cons, Slot.normalForm_inner method lhs_read,
        Slot.normalForm_inner method rhs_read]
      rfl
    case between =>
      simp only [bounds, bind_eq_ok_iff, pure_eq_ok] at read
      obtain ⟨operand, operand_read, _, bounded, rfl⟩ := read
      obtain ⟨lower, lower_read, upper, upper_read, ordered⟩ := bounded
      split at ordered
      · cases ordered
      cases ordered
      simp only [FilterTag.shape, List.map_cons, List.filterMap_cons,
        Slot.normalForm_inner method operand_read, parameter?_number lower_read,
        parameter?_number upper_read]
      rfl
    case all | any =>
      obtain ⟨items, listed, args, args_read, rfl⟩ := read
      simp only [FilterTag.shape, List.map_cons, Slot.normalForm_several ih listed args_read]
      rw [Filter.normalForm, Filter.normalForms_eq_map]
      rfl
    case not =>
      obtain ⟨arg, arg_read, rfl⟩ := read
      simp only [FilterTag.shape, List.map_cons, Slot.normalForm_inner ih arg_read]
      rfl

theorem normalForm_of_compileExit {rule : ExitRule}
    (compiled : compileExit limit levels v = .ok rule) :
    normalForm (.expression .exitRule) v = rule.normalForm := by
  cases levels with
  | zero => cases compiled
  | succ levels =>
    rw [compileExit, entered_eq_ok_iff] at compiled
    obtain ⟨n, tag, t, rfl, tagged, found, read⟩ := compiled
    obtain rfl := Named.find?_eq_some found
    have shaped : (Role.expression .exitRule).shape n = .ok t.shape :=
      Role.shape_eq_ok_iff.mpr ⟨t, tagged, rfl⟩
    rw [normalForm_tagged tagged shaped]
    cases t <;> simp only [bind_eq_ok_iff, here_eq_ok_iff, pure_eq_ok, Except.ok.injEq] at read
    case takeProfit | stopLoss =>
      obtain ⟨price, price_read, target, target_read, rfl⟩ := read
      simp only [ExitTag.shape, List.map_cons, List.filterMap_cons,
        Slot.normalForm_innerD normalForm_of_compileMethod price_read rfl,
        parameter?_number target_read]
      rfl
    case signal =>
      obtain ⟨filter, filter_read, rfl⟩ := read
      simp only [ExitTag.shape, List.map_cons,
        Slot.normalForm_inner normalForm_of_compileFilter filter_read]
      rfl

theorem normalForm_of_compileStrategy {s : Strategy}
    (compiled : compileStrategy limit levels v = .ok s) :
    normalForm .strategy v = s.normalForm := by
  cases levels with
  | zero => cases compiled
  | succ levels =>
    simp only [compileStrategy, bind_eq_ok_iff, here_eq_ok_iff, node_eq_ok_iff, pure_eq_ok,
      Except.ok.injEq] at compiled
    obtain ⟨n, rfl, entry, entry_read, price, price_read, items, listed, exits, exits_read, title,
      title_read, description, description_read, rfl⟩ := compiled
    have shaped : Role.strategy.shape n = .ok strategyShape := rfl
    rw [normalForm_object shaped]
    simp only [strategyShape, List.map_cons, List.filterMap_cons,
      Slot.normalForm_inner normalForm_of_compileFilter entry_read,
      Slot.normalForm_innerD normalForm_of_compileMethod price_read rfl,
      Slot.normalForm_several normalForm_of_compileExit listed exits_read,
      parameter?_string title_read, parameter?_stringD description_read rfl]
    rfl

end Compilers

/-- Two documents compile to one tree just when they say the same, as methods, as filters and as
strategies, however deep their nodes may be. -/
theorem compile_eq_iff_normalForm_eq (d d' : Nat) (v v' : Json) :
    (∀ m m', Method.compile d v = .ok m → Method.compile d' v' = .ok m' →
      (m == m' ↔ normalForm (.expression .method) v = normalForm (.expression .method) v')) ∧
    (∀ f f', Filter.compile d v = .ok f → Filter.compile d' v' = .ok f' →
      (f == f' ↔ normalForm (.expression .filter) v = normalForm (.expression .filter) v')) ∧
    ∀ s s', Strategy.compile d v = .ok s → Strategy.compile d' v' = .ok s' →
      (s == s' ↔ normalForm .strategy v = normalForm .strategy v') := by
  refine ⟨?_, ?_, ?_⟩
  · intro m m' compiled compiled'
    rw [beq_iff_eq, normalForm_of_compileMethod compiled, normalForm_of_compileMethod compiled',
      Method.normalForm_injective.eq_iff]
  · intro f f' compiled compiled'
    rw [beq_iff_eq, normalForm_of_compileFilter compiled, normalForm_of_compileFilter compiled',
      Filter.normalForm_injective.eq_iff]
  · intro s s' compiled compiled'
    rw [beq_iff_eq, normalForm_of_compileStrategy compiled, normalForm_of_compileStrategy compiled',
      Strategy.normalForm_injective.eq_iff]

/-- Bands with a multiplier of 2 are those without one, whatever else their node holds and in which
order; a range from 0 is not the one from -0; an exit rule and a strategy without a price are those
with the closing one. -/
theorem compile_eq_iff_normalForm_eq_multiplier :
    let close : Json := .object [("type", .string "field"), ("field", .string "close")]
    let bands : Json := .object [("type", .string "bollinger"), ("period", .number (.integer 3)),
      ("output", .string "upper")]
    let bands' : Json := .object [("note", .null), ("output", .string "upper"),
      ("multiplier", .number (.integer 2)), ("period", .number (.integer 3)),
      ("type", .string "bollinger")]
    let range : Json := .object [("type", .string "between"), ("operand", close),
      ("lower", .number (.integer 0)), ("upper", .number (.integer 1))]
    let range' : Json := .object [("type", .string "between"), ("operand", close),
      ("lower", .number (.real (-0.0) (by decide))), ("upper", .number (.integer 1))]
    let rule : Json := .object [("type", .string "stop_loss"), ("target", .number (.integer 5))]
    let rule' : Json := .object [("type", .string "stop_loss"), ("price", close),
      ("target", .number (.real 5.0 (by decide)))]
    let plan : Json := .object [("name", .string "s"), ("entry", range), ("exits", .array [rule])]
    let plan' : Json := .object [("name", .string "s"), ("description", .string ""),
      ("entry", range), ("price", close), ("exits", .array [rule'])]
    Method.compile 0 bands = .ok (.bollinger 3 2.0 .upper) ∧
      Method.compile 7 bands' = .ok (.bollinger 3 (Float.ofInt 2) .upper) ∧
      normalForm (.expression .method) bands = normalForm (.expression .method) bands' ∧
    Filter.compile 1 range = .ok (.between .closing (Float.ofInt 0) (Float.ofInt 1)) ∧
      Filter.compile 1 range' = .ok (.between .closing (-0.0) (Float.ofInt 1)) ∧
      normalForm (.expression .filter) range ≠ normalForm (.expression .filter) range' ∧
    Succeeds (Strategy.compile 2 plan) ∧ Strategy.compile 3 plan' = Strategy.compile 2 plan ∧
      normalForm .strategy plan = normalForm .strategy plan' := by
  intro close bands bands' range range' rule rule' plan plan'
  have method : Method.compile 0 bands = .ok (.bollinger 3 2.0 .upper) := by rfl
  have method' : Method.compile 7 bands' = .ok (.bollinger 3 (Float.ofInt 2) .upper) := by rfl
  have filter : Filter.compile 1 range =
      .ok (.between .closing (Float.ofInt 0) (Float.ofInt 1)) := by rfl
  have filter' : Filter.compile 1 range' = .ok (.between .closing (-0.0) (Float.ofInt 1)) := by rfl
  let s : Strategy := ⟨"s", "", .between .closing (Float.ofInt 0) (Float.ofInt 1), .closing,
    [.stopLoss 5.0 .closing]⟩
  have whole : Float.ofInt 5 = 5.0 := by decide
  have strategy : Strategy.compile 2 plan = .ok s := by
    simp only [s, ← whole]
    rfl
  have strategy' : Strategy.compile 3 plan' = .ok s := by rfl
  have methods := (compile_eq_iff_normalForm_eq 0 7 bands bands').1 _ _ method method'
  have filters := (compile_eq_iff_normalForm_eq 1 1 range range').2.1 _ _ filter filter'
  have strategies := (compile_eq_iff_normalForm_eq 2 3 plan plan').2.2 s s strategy strategy'
  refine ⟨method, method', methods.mp (by decide), filter, filter', ?_, ⟨s, strategy⟩,
    strategy'.trans strategy.symm, strategies.mp (beq_self_eq_true s)⟩
  intro same
  exact absurd (filters.mpr same) (by decide)

end Document

end TradingRules
