import TradingRules.Proofs.Shapes

/-!
# Where faults lie

A fault names a node by the steps that lead to it and says what is wrong there. The steps can be
taken in the document, the node they lead to has the fault all by itself, and what the fault says is
so. A fault in a parameter without expressions in it is reported only where the expressions of the
node are in order.
-/

namespace TradingRules.Document

open Json (get?)

/-- The value one step further in. -/
def Step.follow (v : Json) : Step → Option Json
  | .key name => do get? (← v.object?) name
  | .item name index => do
    let items ← (← get? (← v.object?) name).array?
    items[index]?

/-- The value that a path leads to, step by step. -/
def follow : Json → List Step → Option Json
  | v, [] => some v
  | v, step :: rest => do follow (← step.follow v) rest

/-- A node has the shape of its tag; the root of a strategy needs no tag. -/
def Role.Has (n : Node) (shape : Shape) : Role → Prop
  | .expression .method =>
    ∃ t : MethodTag, get? n "type" = some (.string (name t)) ∧ shape = t.shape
  | .expression .filter =>
    ∃ t : FilterTag, get? n "type" = some (.string (name t)) ∧ shape = t.shape
  | .expression .exitRule =>
    ∃ t : ExitTag, get? n "type" = some (.string (name t)) ∧ shape = t.shape
  | .strategy => shape = strategyShape

/-- An expression stands in a slot of a node, one step further in. -/
def Slot.Holds (n : Node) (step : Step) (w : Json) (slot : Slot) : Prop :=
  match slot.form with
  | .several _ => ∃ items index, get? n slot.key = some (.array items) ∧ items[index]? = some w ∧
      step = .item slot.key index
  | _ => get? n slot.key = some w ∧ step = .key slot.key

/-- A node holds an expression of a category, one step further in. -/
def Nested (role : Role) (v : Json) (step : Step) (category : Category) (w : Json) : Prop :=
  ∃ n shape slot, v = .object n ∧ role.Has n shape ∧ slot ∈ shape.slots ∧
    slot.category = category ∧ slot.Holds n step w

/-- A path leads from a node in one role to a node in another, each step to an expression of the
node before it. -/
inductive Leads : Role → Json → List Step → Role → Json → Prop
  | here {role : Role} {v : Json} : Leads role v [] role v
  | inside {role target : Role} {v w u : Json} {step : Step} {rest : List Step}
      {category : Category} : Nested role v step category w →
      Leads (.expression category) w rest target u → Leads role v (step :: rest) target u

/-- A value is not what a parameter should be. -/
def Kind.Rejects (v : Json) (expected : Expected) : Kind → Prop
  | number => expected = .number ∧ ∀ x, v ≠ .number x
  | period => expected = .period ∧ ∀ p : Nat, 1 ≤ p → v ≠ .number (.integer p)
  | string => expected = .string ∧ ∀ s, v ≠ .string s
  | choice names => expected = .string ∧ (∀ s, v ≠ .string s) ∨
      expected = .oneOf names ∧ ∃ s, v = .string s ∧ s ∉ names

/-- What a cause says of the parameters of a node is so, and a check asks for something else. -/
def Check.Breaks (n : Node) (check : Check) : Cause → Prop
  | .missingParameter key => (∃ kind, check = .required key kind) ∧ get? n key = none
  | .invalidParameter key expected =>
    (∃ kind v, (check = .required key kind ∨ check = .optional key kind) ∧ get? n key = some v ∧
      kind.Rejects v expected) ∨
    (check = .fastBelowSlow ∧ key = "fast" ∧ expected = .belowSlow ∧
      ∃ fast slow, n.PeriodOr "fast" 12 fast ∧ n.PeriodOr "slow" 26 slow ∧ slow ≤ fast) ∨
    (check = .lowerNotAboveUpper ∧ key = "lower" ∧ expected = .notAboveUpper ∧
      ∃ lower upper, get? n "lower" = some (.number lower) ∧
        get? n "upper" = some (.number upper) ∧ upper.toFloat < lower.toFloat)
  | _ => False

/-- The same for a slot: it has to be filled, and an array in it too. -/
def Slot.Breaks (n : Node) (slot : Slot) : Cause → Prop
  | .missingParameter key => key = slot.key ∧ slot.form ≠ .optional ∧ get? n key = none
  | .invalidParameter key expected => key = slot.key ∧ slot.form = .several expected ∧
      ∃ v, get? n key = some v ∧ ∀ items, v = .array items → items = []
  | _ => False

/-- A parameter of a node is not what the tag of the node calls for. -/
def Role.Breaks (role : Role) (v : Json) (cause : Cause) : Prop :=
  ∃ n shape, v = .object n ∧ role.Has n shape ∧
    ((∃ slot ∈ shape.slots, slot.Breaks n cause) ∨ ∃ check ∈ shape.checks, check.Breaks n cause)

/-- The names of the tags of a category. -/
def Category.tags : Category → List String
  | method => Named.choices MethodTag
  | filter => Named.choices FilterTag
  | exitRule => Named.choices ExitTag

/-- What a cause says is so of a node in a role. -/
def Cause.TrueOf (role : Role) (v : Json) : Cause → Prop
  | notAnObject => ∀ n, v ≠ .object n
  | missingTag => role ≠ .strategy ∧
      ∃ n, v = .object n ∧ ∀ tag, get? n "type" ≠ some (.string tag)
  | unknownTag category tag => role = .expression category ∧
      ∃ n, v = .object n ∧ get? n "type" = some (.string tag) ∧ tag ∉ category.tags
  | missingParameter key => role.Breaks v (.missingParameter key)
  | invalidParameter key expected => role.Breaks v (.invalidParameter key expected)
  | tooDeep _ => False

/-- The parameters without expressions in them. -/
def scalarKeys : List String :=
  ["period", "fast", "slow", "signal", "k_period", "d_period", "multiplier", "output", "field",
    "value", "target", "lower", "upper", "name", "description"]

/-- A cause concerns a parameter without expressions in it. -/
def Cause.OfScalar : Cause → Prop
  | missingParameter key => key ∈ scalarKeys
  | invalidParameter key _ => key ∈ scalarKeys
  | _ => False

section Nodes

theorem find?_methodTag (t : MethodTag) : Named.find? (name t) = some t := by
  cases t <;> rfl

theorem find?_filterTag (t : FilterTag) : Named.find? (name t) = some t := by
  cases t with
  | compare op => cases op <;> rfl
  | always b => cases b <;> rfl
  | _ => rfl

theorem find?_exitTag (t : ExitTag) : Named.find? (name t) = some t := by
  cases t <;> rfl

theorem map_tagOf_eq_ok_iff {α : Type} [Named α] {category : Category} {n : Node} {f : α → Shape}
    {shape : Shape} (named : ∀ t : α, Named.find? (name t) = some t) :
    f <$> tagOf α category n = .ok shape ↔
      ∃ t : α, get? n "type" = some (.string (name t)) ∧ shape = f t := by
  have mapped : f <$> tagOf α category n = .ok shape ↔
      ∃ t, tagOf α category n = .ok t ∧ shape = f t := by
    cases tagOf α category n with
    | error cause => simp
    | ok t => simp [eq_comm]
  simp only [mapped, tagOf_eq_ok_iff]
  constructor
  · rintro ⟨t, ⟨tag, tagged, found⟩, same⟩
    obtain rfl := Named.find?_eq_some found
    exact ⟨t, tagged, same⟩
  · rintro ⟨t, tagged, same⟩
    exact ⟨t, ⟨name t, tagged, named t⟩, same⟩

theorem Role.shape_eq_ok_iff {role : Role} {n : Node} {shape : Shape} :
    role.shape n = .ok shape ↔ role.Has n shape := by
  rcases role with ⟨⟨⟩⟩ | _
  · exact map_tagOf_eq_ok_iff find?_methodTag
  · exact map_tagOf_eq_ok_iff find?_filterTag
  · exact map_tagOf_eq_ok_iff find?_exitTag
  · simp [Role.shape, Role.Has, eq_comm]

theorem node_eq_error {v : Json} {cause : Cause} (failed : node v = .error cause) :
    cause = .notAnObject ∧ ∀ n, v ≠ .object n := by
  cases v <;> simp_all [node, Json.object?]

theorem tagOf_eq_error {α : Type} [Named α] {category : Category} {n : Node} {cause : Cause}
    (failed : tagOf α category n = .error cause) :
    (cause = .missingTag ∧ ∀ tag, get? n "type" ≠ some (.string tag)) ∨
      ∃ tag, cause = .unknownTag category tag ∧ get? n "type" = some (.string tag) ∧
        tag ∉ Named.choices α := by
  rw [tagOf, bind_eq_error_iff] at failed
  rcases failed with untagged | ⟨tag, tagged, unknown⟩
  · have no_tag : ∀ tag, get? n "type" ≠ some (.string tag) := by
      intro tag tagged
      rw [Node.tag_eq_ok_iff.mpr tagged] at untagged
      cases untagged
    have missing : cause = .missingTag := by
      rw [Node.tag] at untagged
      split at untagged <;> cases untagged
      rfl
    exact .inl ⟨missing, no_tag⟩
  · have unnamed : tag ∉ Named.choices α := by
      rw [← Named.exists_find?_iff]
      rintro ⟨t, found⟩
      rw [found] at unknown
      cases unknown
    have named : cause = .unknownTag category tag := by
      split at unknown <;> cases unknown
      rfl
    exact .inr ⟨tag, named, Node.tag_eq_ok_iff.mp tagged, unnamed⟩

/-- A node without a shape has no tag or one of no use. -/
theorem Role.shape_eq_error {role : Role} {n : Node} {cause : Cause}
    (failed : role.shape n = .error cause) : cause.TrueOf role (.object n) := by
  have mapped : ∀ {α : Type} [Named α] {category : Category} {f : α → Shape},
      f <$> tagOf α category n = .error cause → category.tags = Named.choices α →
      cause.TrueOf (.expression category) (.object n) := by
    intro α _ category f failed tags
    have untagged : tagOf α category n = .error cause := by
      cases found : tagOf α category n with
      | error other =>
        rw [found, map_error] at failed
        cases failed
        rfl
      | ok t =>
        rw [found] at failed
        cases failed
    rcases tagOf_eq_error untagged with ⟨rfl, no_tag⟩ | ⟨tag, rfl, tagged, unnamed⟩
    · exact ⟨by simp, n, rfl, no_tag⟩
    · exact ⟨rfl, n, rfl, tagged, tags ▸ unnamed⟩
  rcases role with ⟨⟨⟩⟩ | _
  · exact mapped failed rfl
  · exact mapped failed rfl
  · exact mapped failed rfl
  · cases failed

theorem Slot.key_not_mem_scalarKeys {role : Role} {n : Node} {shape : Shape}
    (has : role.Has n shape) {slot : Slot} (member : slot ∈ shape.slots) :
    slot.key ∉ scalarKeys := by
  have all : ∀ slot ∈ shape.slots, slot.key ∉ scalarKeys := by
    rcases role with ⟨⟨⟩⟩ | _
    · obtain ⟨t, -, rfl⟩ := has
      cases t <;> decide
    · obtain ⟨t, -, rfl⟩ := has
      cases t <;> simp only [FilterTag.shape] <;> decide
    · obtain ⟨t, -, rfl⟩ := has
      cases t <;> decide
    · obtain rfl := has
      decide
  exact all slot member

end Nodes

section Parameters

variable {n : Node} {key : String} {cause : Cause}

theorem required_eq_error {n : Node} (failed : n.required key = .error cause) :
    cause = .missingParameter key ∧ get? n key = none := by
  rw [Node.required] at failed
  split at failed <;> cases failed
  exact ⟨rfl, ‹_›⟩

theorem expect_eq_error {α : Type} {expected : Expected} {r : Option α}
    (failed : Node.expect key expected r = .error cause) :
    cause = .invalidParameter key expected ∧ r = none := by
  cases r <;> cases failed
  exact ⟨rfl, rfl⟩

theorem Kind.check_eq_error {kind : Kind} {v : Json} (failed : kind.check key v = .error cause) :
    ∃ expected, cause = .invalidParameter key expected ∧ kind.Rejects v expected := by
  have no_string : v.string? = none → ∀ s, v ≠ .string s := by
    rintro none s rfl
    cases none
  cases kind with
  | number =>
    obtain ⟨named, none⟩ := expect_eq_error (verdict_eq_error_iff.mp failed)
    refine ⟨_, named, rfl, ?_⟩
    rintro x rfl
    cases none
  | period =>
    obtain ⟨named, none⟩ := expect_eq_error (verdict_eq_error_iff.mp failed)
    refine ⟨_, named, rfl, ?_⟩
    intro p positive same
    rw [Node.period?_eq_some_iff.mpr ⟨same, positive⟩] at none
    cases none
  | string =>
    obtain ⟨named, none⟩ := expect_eq_error (verdict_eq_error_iff.mp failed)
    exact ⟨_, named, rfl, no_string none⟩
  | choice names =>
    rw [check, bind_eq_error_iff] at failed
    rcases failed with typed | ⟨s, typed, unnamed⟩
    · obtain ⟨named, none⟩ := expect_eq_error typed
      exact ⟨_, named, .inl ⟨rfl, no_string none⟩⟩
    · have string := Node.string?_eq_some_iff.mp (Node.expect_eq_ok_iff.mp typed)
      split at unnamed
      · cases unnamed
      · cases unnamed
        exact ⟨_, rfl, .inr ⟨rfl, s, string, ‹_›⟩⟩

/-- A check that fails says what is wrong with the parameters it looks at. -/
theorem Check.run_eq_error {check : Check} (failed : check.run n = .error cause) :
    check.Breaks n cause := by
  cases check with
  | required key kind =>
    rw [run, bind_eq_error_iff] at failed
    rcases failed with absent | ⟨v, present, rejected⟩
    · obtain ⟨rfl, none⟩ := required_eq_error absent
      exact ⟨⟨kind, rfl⟩, none⟩
    · obtain ⟨expected, rfl, rejects⟩ := Kind.check_eq_error rejected
      exact .inl ⟨kind, v, .inl rfl, Node.required_eq_ok_iff.mp present, rejects⟩
  | optional key kind =>
    rw [run] at failed
    split at failed
    · cases failed
    · obtain ⟨expected, rfl, rejects⟩ := Kind.check_eq_error failed
      exact .inl ⟨kind, _, .inr rfl, ‹_›, rejects⟩
  | fastBelowSlow =>
    cases has_fast : n.periodD "fast" defaultFast with
    | error other =>
      rw [run, has_fast] at failed
      cases failed
    | ok fast =>
      cases has_slow : n.periodD "slow" defaultSlow with
      | error other =>
        rw [run, has_fast, has_slow] at failed
        cases failed
      | ok slow =>
        rw [run_fastBelowSlow n has_fast has_slow] at failed
        split at failed <;> cases failed
        exact .inr (.inl ⟨rfl, rfl, rfl, fast, slow, Node.periodD_eq_ok_iff.mp has_fast,
          Node.periodD_eq_ok_iff.mp has_slow, ‹_›⟩)
  | lowerNotAboveUpper =>
    cases has_lower : n.number "lower" with
    | error other =>
      rw [run, has_lower] at failed
      cases failed
    | ok lower =>
      cases has_upper : n.number "upper" with
      | error other =>
        rw [run, has_lower, has_upper] at failed
        cases failed
      | ok upper =>
        rw [run_lowerNotAboveUpper n has_lower has_upper] at failed
        split at failed <;> cases failed
        obtain ⟨low, low_here, rfl⟩ := Node.number_eq_ok_iff.mp has_lower
        obtain ⟨high, high_here, rfl⟩ := Node.number_eq_ok_iff.mp has_upper
        exact .inr (.inr ⟨rfl, rfl, rfl, low, high, low_here, high_here, ‹_›⟩)

end Parameters

section Slots

variable {n : Node} {key : String} {f : Fault}

theorem here_eq_error {α : Type} {r : Except Cause α} (failed : here r = .error f) :
    f.path = [] ∧ r = .error f.cause := by
  cases r <;> cases failed
  exact ⟨rfl, rfl⟩

theorem under_eq_error {α : Type} {step : Step} {r : Except Fault α}
    (failed : under step r = .error f) :
    ∃ g, r = .error g ∧ f = ⟨step :: g.path, g.cause⟩ := by
  cases r <;> cases failed
  exact ⟨_, rfl, rfl⟩

theorem items_eq_error {expected : Expected} {cause : Cause}
    (failed : n.items key expected = .error cause) :
    (cause = .missingParameter key ∧ get? n key = none) ∨
      cause = .invalidParameter key expected ∧
        ∃ v, get? n key = some v ∧ ∀ items, v = .array items → items = [] := by
  have unfilled := failed
  rw [Node.items, bind_eq_error_iff] at failed
  rcases failed with absent | ⟨v, present, unread⟩
  · exact .inl (required_eq_error absent)
  · obtain ⟨rfl, -⟩ := expect_eq_error unread
    have has_value := Node.required_eq_ok_iff.mp present
    refine .inr ⟨rfl, v, has_value, ?_⟩
    rintro items rfl
    cases items with
    | nil => rfl
    | cons item rest =>
      rw [Node.items_eq_ok_iff.mpr ⟨has_value, List.cons_ne_nil item rest⟩] at unfilled
      cases unfilled

variable {inspect : Json → Except Fault Unit}

theorem inspectItems_eq_error {index : Nat} {items : List Json}
    (failed : inspectItems inspect key index items = .error f) :
    ∃ i w g, items[i]? = some w ∧ inspect w = .error g ∧
      f = ⟨.item key (index + i) :: g.path, g.cause⟩ := by
  induction items generalizing index with
  | nil => cases failed
  | cons v rest ih =>
    rw [inspectItems, bind_eq_error_iff] at failed
    rcases failed with first | ⟨-, -, later⟩
    · obtain ⟨g, fails, same⟩ := under_eq_error first
      exact ⟨0, v, g, rfl, fails, same⟩
    · obtain ⟨i, w, g, found, fails, same⟩ := ih later
      refine ⟨i + 1, w, g, found, fails, ?_⟩
      rw [same, Nat.add_assoc, Nat.add_comm 1 i]

theorem inspectItems_eq_ok {index : Nat} {items : List Json}
    (sound : inspectItems inspect key index items = .ok ()) {i : Nat} {w : Json}
    (found : items[i]? = some w) : inspect w = .ok () := by
  induction items generalizing index i with
  | nil => cases found
  | cons v rest ih =>
    rw [inspectItems, bind_eq_ok_iff] at sound
    obtain ⟨⟨⟩, first, later⟩ := sound
    cases i with
    | zero =>
      obtain rfl := Option.some.inj found
      exact under_eq_ok_iff.mp first
    | succ i => exact ih later found

variable {walk : Category → Json → Except Fault Unit} {slot : Slot}

/-- A slot that fails is not filled as it should be, or an expression in it fails. -/
theorem Slot.inspect_eq_error (failed : slot.inspect walk n = .error f) :
    (f.path = [] ∧ slot.Breaks n f.cause) ∨
      ∃ step w g, slot.Holds n step w ∧ walk slot.category w = .error g ∧
        f = ⟨step :: g.path, g.cause⟩ := by
  rcases slot with ⟨key, category, form⟩
  cases form with
  | required =>
    have opened : inner (walk category) n key = .error f := failed
    rw [inner, bind_eq_error_iff] at opened
    rcases opened with absent | ⟨w, present, fails⟩
    · obtain ⟨root, cause⟩ := here_eq_error absent
      obtain ⟨named, none⟩ := required_eq_error cause
      rw [named]
      exact .inl ⟨root, rfl, by simp, none⟩
    · obtain ⟨g, fails, same⟩ := under_eq_error fails
      have found := Node.required_eq_ok_iff.mp (here_eq_ok_iff.mp present)
      exact .inr ⟨.key key, w, g, ⟨found, rfl⟩, fails, same⟩
  | optional =>
    have opened : innerD (walk category) n key () = .error f := failed
    rw [innerD] at opened
    split at opened
    · cases opened
    · obtain ⟨g, fails, same⟩ := under_eq_error opened
      exact .inr ⟨.key key, _, g, ⟨‹_›, rfl⟩, fails, same⟩
  | several expected =>
    have opened : (do
        let items ← here (n.items key expected)
        inspectItems (walk category) key 0 items) = .error f := failed
    rw [bind_eq_error_iff] at opened
    rcases opened with unfilled | ⟨items, present, fails⟩
    · obtain ⟨root, cause⟩ := here_eq_error unfilled
      rcases items_eq_error cause with ⟨named, none⟩ | ⟨named, v, present, empty⟩
      · rw [named]
        exact .inl ⟨root, rfl, by simp, none⟩
      · rw [named]
        exact .inl ⟨root, rfl, rfl, v, present, empty⟩
    · obtain ⟨i, w, g, found, fails, same⟩ := inspectItems_eq_error fails
      obtain ⟨has_items, -⟩ := Node.items_eq_ok_iff.mp (here_eq_ok_iff.mp present)
      rw [Nat.zero_add] at same
      exact .inr ⟨.item key i, w, g, ⟨items, i, has_items, found, rfl⟩, fails, same⟩

/-- Every expression in a slot that passes does. -/
theorem Slot.inspect_eq_ok (sound : slot.inspect walk n = .ok ()) {step : Step} {w : Json}
    (holds : slot.Holds n step w) : walk slot.category w = .ok () := by
  rcases slot with ⟨key, category, form⟩
  cases form with
  | required =>
    have opened : inner (walk category) n key = .ok () := sound
    obtain ⟨v, present, passes⟩ := inner_eq_ok_iff.mp opened
    obtain ⟨found, -⟩ := holds
    obtain rfl := Option.some.inj (present.symm.trans found)
    exact passes
  | optional =>
    have opened : innerD (walk category) n key () = .ok () := sound
    obtain ⟨found, -⟩ := holds
    rcases innerD_eq_ok_iff.mp opened with ⟨none, -⟩ | ⟨v, present, passes⟩
    · cases none.symm.trans found
    · obtain rfl := Option.some.inj (present.symm.trans found)
      exact passes
  | several expected =>
    have opened : (do
        let items ← here (n.items key expected)
        inspectItems (walk category) key 0 items) = .ok () := sound
    obtain ⟨items, present, passes⟩ := bind_eq_ok_iff.mp opened
    obtain ⟨has_items, -⟩ := Node.items_eq_ok_iff.mp (here_eq_ok_iff.mp present)
    obtain ⟨others, index, has_others, found, -⟩ := holds
    have same : items = others :=
      Json.array.inj (Option.some.inj (has_items.symm.trans has_others))
    exact inspectItems_eq_ok passes (same ▸ found)

theorem Slot.Holds.follow {step : Step} {w : Json} (holds : slot.Holds n step w) :
    step.follow (.object n) = some w := by
  rcases slot with ⟨key, category, form⟩
  cases form with
  | required =>
    obtain ⟨found, rfl⟩ := holds
    exact found
  | optional =>
    obtain ⟨found, rfl⟩ := holds
    exact found
  | several expected =>
    obtain ⟨items, index, has_items, found, rfl⟩ := holds
    simp [Step.follow, Json.object?, has_items, Json.array?, found]

end Slots

section Walks

variable {role : Role} {n : Node} {v : Json} {f : Fault} {limit levels : Nat}

theorem Cause.TrueOf.of_breaks {cause : Cause} {shape : Shape} (has : role.Has n shape)
    (breaks : (∃ slot ∈ shape.slots, slot.Breaks n cause) ∨
      ∃ check ∈ shape.checks, check.Breaks n cause) : cause.TrueOf role (.object n) := by
  cases cause with
  | missingParameter key => exact ⟨n, shape, rfl, has, breaks⟩
  | invalidParameter key expected => exact ⟨n, shape, rfl, has, breaks⟩
  | _ => rcases breaks with ⟨_, -, ⟨⟩⟩ | ⟨_, -, ⟨⟩⟩

/-- A cause that a slot breaks names the key of the slot. -/
theorem Slot.Breaks.not_ofScalar {slot : Slot} {cause : Cause} (breaks : slot.Breaks n cause)
    (other : slot.key ∉ scalarKeys) : ¬ cause.OfScalar := by
  cases cause with
  | missingParameter key => exact breaks.1 ▸ other
  | invalidParameter key expected => exact breaks.1 ▸ other
  | _ => exact id

/-- A walk that fails at a node itself says so truly, and if the cause is a parameter without
expressions in it, the expressions have passed. A walk that fails further in does so at an
expression of the node. -/
theorem inspect_eq_error (failed : inspect limit (levels + 1) role v = .error f) :
    (f.path = [] ∧ f.cause.TrueOf role v ∧
      (f.cause.OfScalar → ∀ step category w, Nested role v step category w →
        inspect limit levels (.expression category) w = .ok ())) ∨
    ∃ step category w g, Nested role v step category w ∧
      inspect limit levels (.expression category) w = .error g ∧
      f = ⟨step :: g.path, g.cause⟩ := by
  rw [inspect, bind_eq_error_iff] at failed
  rcases failed with no_object | ⟨n, object, failed⟩
  · obtain ⟨root, cause⟩ := here_eq_error no_object
    obtain ⟨named, none⟩ := node_eq_error cause
    rw [named]
    exact .inl ⟨root, none, fun scalar => scalar.elim⟩
  obtain rfl := node_eq_ok_iff.mp (here_eq_ok_iff.mp object)
  rw [bind_eq_error_iff] at failed
  rcases failed with shapeless | ⟨shape, shaped, failed⟩
  · obtain ⟨root, cause⟩ := here_eq_error shapeless
    refine .inl ⟨root, Role.shape_eq_error cause, fun scalar step category w nested => ?_⟩
    obtain ⟨m, shape, -, same, has, -⟩ := nested
    obtain rfl := Json.object.inj same
    rw [Role.shape_eq_ok_iff.mpr has] at cause
    cases cause
  have has := Role.shape_eq_ok_iff.mp (here_eq_ok_iff.mp shaped)
  rw [Shape.inspect, bind_eq_error_iff] at failed
  rcases failed with slots | ⟨⟨⟩, slots, checks⟩
  · obtain ⟨slot, member, fails⟩ := forM_eq_error slots
    rcases Slot.inspect_eq_error fails with ⟨root, breaks⟩ | ⟨step, w, g, holds, fails, same⟩
    · have unlisted := breaks.not_ofScalar (Slot.key_not_mem_scalarKeys has member)
      exact .inl ⟨root, .of_breaks has (.inl ⟨slot, member, breaks⟩),
        fun scalar => absurd scalar unlisted⟩
    · exact .inr ⟨step, slot.category, w, g, ⟨n, shape, slot, rfl, has, member, rfl, holds⟩, fails,
        same⟩
  · obtain ⟨root, cause⟩ := here_eq_error checks
    obtain ⟨check, member, fails⟩ := forM_eq_error cause
    have breaks := Check.run_eq_error fails
    refine .inl ⟨root, .of_breaks has (.inr ⟨check, member, breaks⟩), ?_⟩
    rintro - step category w ⟨m, other, slot, same, also, listed, rfl, holds⟩
    obtain rfl := Json.object.inj same
    have shapes := (Role.shape_eq_ok_iff.mpr has).symm.trans (Role.shape_eq_ok_iff.mpr also)
    obtain rfl := Except.ok.inj shapes
    exact Slot.inspect_eq_ok (forM_eq_ok_iff.mp slots slot listed) holds

end Walks

section Bounds

variable {α : Type} {n : Node} {key : String}

/-- The same cause where the deepest node may be another one. -/
def Cause.within (limit : Nat) : Cause → Cause
  | tooDeep _ => tooDeep limit
  | cause => cause

def Fault.within (limit : Nat) (f : Fault) : Fault := ⟨f.path, f.cause.within limit⟩

theorem Cause.within_eq {cause : Cause} (shallow : ∀ limit, cause ≠ .tooDeep limit) (limit : Nat) :
    cause.within limit = cause := by
  cases cause with
  | tooDeep other => exact absurd rfl (shallow other)
  | _ => rfl

theorem Cause.TrueOf.shallow {role : Role} {v : Json} {cause : Cause}
    (holds : cause.TrueOf role v) (limit : Nat) : cause ≠ .tooDeep limit := by
  rintro rfl
  exact holds

theorem here_within {r : Except Cause α}
    (shallow : ∀ cause, r = .error cause → ∀ limit, cause ≠ .tooDeep limit) (limit : Nat) :
    (here r).mapError (Fault.within limit) = here r := by
  cases r with
  | ok x => rfl
  | error cause =>
    have same := Cause.within_eq (shallow cause rfl) limit
    simp only [here, mapError_error, Fault.within, same]

theorem under_within (step : Step) (r : Except Fault α) (limit : Nat) :
    (under step r).mapError (Fault.within limit) =
      under step (r.mapError (Fault.within limit)) := by
  cases r <;> rfl

theorem inspectItems_within (inspect : Json → Except Fault Unit) (index : Nat) (items : List Json)
    (limit : Nat) :
    (inspectItems inspect key index items).mapError (Fault.within limit) =
      inspectItems (fun v => (inspect v).mapError (Fault.within limit)) key index items := by
  induction items generalizing index with
  | nil => rfl
  | cons v rest ih => simp only [inspectItems, mapError_bind, under_within, ih]

/-- What a slot says itself does not depend on how deep a node may be. -/
theorem Slot.inspect_within (walk : Category → Json → Except Fault Unit) (slot : Slot)
    (limit : Nat) :
    (slot.inspect walk n).mapError (Fault.within limit) =
      slot.inspect (fun category v => (walk category v).mapError (Fault.within limit)) n := by
  rcases slot with ⟨key, category, form⟩
  cases form with
  | required =>
    have shallow : ∀ cause, n.required key = .error cause → ∀ limit, cause ≠ .tooDeep limit := by
      intro cause failed limit
      rw [(required_eq_error failed).1]
      simp
    simp only [Slot.inspect, inner, mapError_bind, here_within shallow, under_within]
  | optional =>
    simp only [Slot.inspect, innerD]
    cases get? n key with
    | none => rfl
    | some v => exact under_within (.key key) (walk category v) limit
  | several expected =>
    have shallow : ∀ cause, n.items key expected = .error cause →
        ∀ limit, cause ≠ .tooDeep limit := by
      intro cause failed limit
      rcases items_eq_error failed with ⟨rfl, -⟩ | ⟨rfl, -⟩ <;> simp
    simp only [Slot.inspect, mapError_bind, here_within shallow, inspectItems_within]

/-- How deep a node may be shows only where one is too deep. -/
theorem inspect_within (limit other levels : Nat) (role : Role) (v : Json) :
    inspect other levels role v = (inspect limit levels role v).mapError (Fault.within other) := by
  induction levels generalizing role v with
  | zero => rfl
  | succ levels ih =>
    have object : ∀ cause, node v = .error cause → ∀ limit, cause ≠ .tooDeep limit := by
      intro cause failed limit
      rw [(node_eq_error failed).1]
      simp
    simp only [inspect, mapError_bind, here_within object]
    refine congrArg (_ >>= ·) (funext fun n => ?_)
    have shaped : ∀ cause, role.shape n = .error cause → ∀ limit, cause ≠ .tooDeep limit :=
      fun cause failed => (Role.shape_eq_error failed).shallow
    rw [here_within shaped]
    refine congrArg (_ >>= ·) (funext fun shape => ?_)
    have checked : ∀ cause, forM shape.checks (Check.run n) = .error cause →
        ∀ limit, cause ≠ .tooDeep limit := by
      rintro cause failed limit rfl
      obtain ⟨check, -, fails⟩ := forM_eq_error failed
      exact Check.run_eq_error fails
    have deeper : (fun category => inspect other levels (.expression category)) =
        fun category w => (inspect limit levels (.expression category) w).mapError
          (Fault.within other) :=
      funext fun category => funext fun w => ih (.expression category) w
    simp only [Shape.inspect, mapError_bind, mapError_forM, here_within checked,
      Slot.inspect_within, deeper]

end Bounds

section Paths

variable {role : Role} {v : Json} {f : Fault} {limit levels : Nat}

theorem Nested.follow {step : Step} {category : Category} {w : Json}
    (nested : Nested role v step category w) : step.follow v = some w := by
  obtain ⟨n, shape, slot, rfl, -, -, -, holds⟩ := nested
  exact holds.follow

/-- The path of a fault can be followed, and leads to a node. -/
theorem Leads.follow {path : List Step} {target : Role} {w : Json}
    (leads : Leads role v path target w) : follow v path = some w := by
  induction leads with
  | here => rfl
  | inside nested _ ih => simpa [Document.follow, nested.follow] using ih

/-- A walk that fails does so at the node its fault leads to, with as many levels left there as the
path has not used up. -/
theorem inspect_leads (failed : inspect limit levels role v = .error f)
    (shallow : ∀ limit, f.cause ≠ .tooDeep limit) :
    ∃ target w below, Leads role v f.path target w ∧ levels = f.path.length + below + 1 ∧
      inspect limit (below + 1) target w = .error ⟨[], f.cause⟩ ∧ f.cause.TrueOf target w ∧
      (f.cause.OfScalar → ∀ step category u, Nested target w step category u →
        inspect limit below (.expression category) u = .ok ()) := by
  induction levels generalizing role v f with
  | zero =>
    cases failed
    exact absurd rfl (shallow limit)
  | succ levels ih =>
    rcases inspect_eq_error failed with
      ⟨root, holds, sound⟩ | ⟨step, category, w, g, nested, fails, rfl⟩
    · obtain ⟨path, cause⟩ := f
      obtain rfl : path = [] := root
      exact ⟨role, v, levels, .here, by simp, failed, holds, sound⟩
    · obtain ⟨target, u, below, leads, count, alone, holds, sound⟩ := ih fails shallow
      refine ⟨target, u, below, .inside nested leads, ?_, alone, holds, sound⟩
      rw [count, List.length_cons]
      omega

end Paths

/-- A fault names a node in its role, at a depth of at most `d`: the steps of the path can be taken
and lead to it, each to an expression of the node before; compiled by itself, as its place calls for
and with as many levels as are left there, the node has the same fault at its root; what the fault
says of it is so; and a fault in a parameter without expressions in it leaves no fault in the
expressions of the node. -/
structure Fault.Pinpoints (f : Fault) (d : Nat) (root : Role) (v : Json) (role : Role) (w : Json) :
    Prop where
  followed : follow v f.path = some w
  leads : Leads root v f.path role w
  depth_le : f.path.length ≤ d
  alone : role.compile (d - f.path.length) w = .error ⟨[], f.cause⟩
  holds : f.cause.TrueOf role w
  nested : f.cause.OfScalar → ∀ step category u, Nested role w step category u →
    f.path.length < d ∧
      (Role.expression category).compile (d - f.path.length - 1) u = .ok ()

/-- Every fault of a document pinpoints a node of it, unless it lies too deep: whatever is compiled,
a method, a filter or a strategy, and however deep a node may be. -/
theorem compile_fault_pinpoints (d : Nat) (v : Json) (root : Role) (f : Fault)
    (failed : root.compile d v = .error f) (shallow : ∀ limit, f.cause ≠ .tooDeep limit) :
    ∃ role w, f.Pinpoints d root v role w := by
  rw [Role.compile_eq_inspect] at failed
  obtain ⟨role, w, below, leads, count, alone, holds, sound⟩ := inspect_leads failed shallow
  have left : d - f.path.length = below := by omega
  refine ⟨role, w, leads.follow, leads, by omega, ?_, holds, ?_⟩
  · have same := Cause.within_eq shallow below
    rw [Role.compile_eq_inspect, left, inspect_within d, alone]
    simp only [mapError_error, Fault.within, same]
  · intro scalar step category u nested
    have passes := sound scalar step category u nested
    cases below with
    | zero => cases passes
    | succ below =>
      refine ⟨by omega, ?_⟩
      rw [Role.compile_eq_inspect, left, Nat.add_sub_cancel, inspect_within d, passes]
      rfl

/-- An average over no bars, two levels down where two are allowed: the fault lies at its period, at
the second operand of the second member. -/
theorem compile_fault_pinpoints_second_member :
    let close : Json := .object [("type", .string "field"), ("field", .string "close")]
    let average : Json := .object [("type", .string "sma"), ("period", .number (.integer 0))]
    let below : Json := .object [("type", .string "lt"), ("lhs", close), ("rhs", average)]
    let doc : Json := .object [("type", .string "and"),
      ("args", .array [.object [("type", .string "true")], below])]
    let f : Fault := ⟨[.item "args" 1, .key "rhs"], .invalidParameter "period" .period⟩
    (Role.expression .filter).compile 2 doc = .error f ∧
      (∀ limit, f.cause ≠ .tooDeep limit) ∧
      ∃ role w, f.Pinpoints 2 (.expression .filter) doc role w := by
  intro close average below doc f
  have failed : (Role.expression .filter).compile 2 doc = .error f := by rfl
  have shallow : ∀ limit, f.cause ≠ .tooDeep limit := by simp [f]
  exact ⟨failed, shallow, compile_fault_pinpoints 2 doc (.expression .filter) f failed shallow⟩

end TradingRules.Document
