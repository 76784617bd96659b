import TradingRules.Strategy

/-!
# Operands of a strategy

An operand stands at a place: the way down to it through the entry, the price and the exits, and
through the members of each condition. Places are compared from the top, so a strategy is visited
from its first place to its last one. Its methods are what stands at any place, each listed once and
in the order of their first places.
-/

namespace TradingRules

section Places

variable {α β : Type}

/-- A list is what stands at some places, in the order of the places. -/
def Enumerates (occurs : List Nat → α → Prop) (xs : List α) : Prop :=
  ∃ placed : List (List Nat × α), placed.map Prod.snd = xs ∧
    placed.Pairwise (fun first second => first.1 < second.1) ∧
    ∀ place x, (place, x) ∈ placed ↔ occurs place x

/-- A list is what stands at any place, each once, in the order of first places. -/
structure ListsFirst [DecidableEq α] (occurs : List Nat → α → Prop) (xs : List α) : Prop where
  mem : ∀ x, x ∈ xs ↔ ∃ place, occurs place x
  nodup : xs.Nodup
  ordered : xs.Pairwise fun x y =>
    ∃ first, occurs first x ∧ ∀ place, occurs place y → first < place

namespace Enumerates

variable {occurs other : List Nat → α → Prop} {xs ys : List α}

theorem congr (same : ∀ place x, occurs place x ↔ other place x)
    (enumerates : Enumerates occurs xs) : Enumerates other xs := by
  obtain ⟨placed, listed, ordered, placed_iff⟩ := enumerates
  exact ⟨placed, listed, ordered, fun place x => (placed_iff place x).trans (same place x)⟩

theorem nil : Enumerates (fun _ _ => False) ([] : List α) :=
  ⟨[], rfl, .nil, by simp⟩

theorem single (place : List Nat) (x : α) :
    Enumerates (fun q y => q = place ∧ y = x) [x] :=
  ⟨[(place, x)], rfl, List.pairwise_singleton _ _, by simp⟩

theorem append (first : Enumerates occurs xs) (second : Enumerates other ys)
    (before : ∀ p x q y, occurs p x → other q y → p < q) :
    Enumerates (fun place x => occurs place x ∨ other place x) (xs ++ ys) := by
  obtain ⟨placed, rfl, ordered, placed_iff⟩ := first
  obtain ⟨placed', rfl, ordered', placed_iff'⟩ := second
  refine ⟨placed ++ placed', List.map_append, ?_, ?_⟩
  · rw [List.pairwise_append]
    refine ⟨ordered, ordered', ?_⟩
    rintro ⟨p, x⟩ here ⟨q, y⟩ there
    exact before p x q y ((placed_iff p x).mp here) ((placed_iff' q y).mp there)
  · intro place x
    rw [List.mem_append, placed_iff, placed_iff']

/-- The places below a step are as many and in the same order. -/
theorem under (k : Nat) (enumerates : Enumerates occurs xs) :
    Enumerates (fun place x => ∃ rest, place = k :: rest ∧ occurs rest x) xs := by
  obtain ⟨placed, rfl, ordered, placed_iff⟩ := enumerates
  refine ⟨placed.map fun p => (k :: p.1, p.2), by simp, ?_, ?_⟩
  · rw [List.pairwise_map]
    exact ordered.imp fun less => List.cons_lt_cons_iff.mpr (.inr ⟨rfl, less⟩)
  · intro place x
    simp only [List.mem_map, Prod.mk.injEq, Prod.exists]
    constructor
    · rintro ⟨rest, y, member, rfl, rfl⟩
      exact ⟨rest, rfl, (placed_iff rest y).mp member⟩
    · rintro ⟨rest, rfl, found⟩
      exact ⟨rest, x, (placed_iff rest x).mpr found, rfl, rfl⟩

end Enumerates

/-- What stands at places below the members of a list, the first of which has the given number. -/
def Among (occurs : β → List Nat → α → Prop) (start : Nat) (members : List β) (place : List Nat)
    (x : α) : Prop :=
  ∃ k member rest, members[k]? = some member ∧ place = (start + k) :: rest ∧
    occurs member rest x

theorem among_cons {occurs : β → List Nat → α → Prop} {start : Nat} {b : β} {members : List β}
    {place : List Nat} {x : α} :
    Among occurs start (b :: members) place x ↔
      (∃ rest, place = start :: rest ∧ occurs b rest x) ∨
        Among occurs (start + 1) members place x := by
  constructor
  · rintro ⟨k, member, rest, present, rfl, found⟩
    cases k with
    | zero =>
      obtain rfl := Option.some.inj present
      exact .inl ⟨rest, rfl, found⟩
    | succ k => exact .inr ⟨k, member, rest, present, by rw [Nat.add_right_comm]; rfl, found⟩
  · rintro (⟨rest, rfl, found⟩ | ⟨k, member, rest, present, rfl, found⟩)
    · exact ⟨0, b, rest, rfl, rfl, found⟩
    · exact ⟨k + 1, member, rest, present, by rw [Nat.add_right_comm]; rfl, found⟩

theorem enumerates_flatMap {occurs : β → List Nat → α → Prop} {list : β → List α}
    {members : List β} (each : ∀ b ∈ members, Enumerates (occurs b) (list b)) (start : Nat) :
    Enumerates (Among occurs start members) (members.flatMap list) := by
  induction members generalizing start with
  | nil => exact Enumerates.nil.congr fun place x => ⟨False.elim, fun ⟨_, _, _, h, _⟩ => by cases h⟩
  | cons b rest ih =>
    obtain ⟨here, others⟩ := List.forall_mem_cons.mp each
    rw [List.flatMap_cons]
    refine ((here.under start).append (ih others (start + 1)) ?_).congr fun place x =>
      among_cons.symm
    rintro _ x _ y ⟨p, rfl, -⟩ ⟨k, member, q, -, rfl, -⟩
    exact List.cons_lt_cons_iff.mpr (.inl (by omega))

theorem enumerates_ofList (xs : List α) :
    Enumerates (fun place x => ∃ k, place = [k] ∧ xs[k]? = some x) xs := by
  have each := enumerates_flatMap (fun x (_ : x ∈ xs) => Enumerates.single [] x) 0
  rw [List.flatMap_singleton'] at each
  refine each.congr fun place x => ⟨?_, ?_⟩
  · rintro ⟨k, y, rest, present, rfl, rfl, rfl⟩
    exact ⟨k, by rw [Nat.zero_add], present⟩
  · rintro ⟨k, rfl, present⟩
    exact ⟨k, x, [], present, by rw [Nat.zero_add], rfl, rfl⟩

variable [DecidableEq α]

theorem mem_distinct {xs : List α} {x : α} : x ∈ distinct xs ↔ x ∈ xs := by
  induction xs with
  | nil => exact Iff.rfl
  | cons y rest ih =>
    rw [distinct, List.mem_cons, List.mem_cons, List.mem_filter, ih]
    by_cases same : x = y <;> simp [same]

theorem nodup_distinct (xs : List α) : (distinct xs).Nodup := by
  induction xs with
  | nil => exact .nil
  | cons y rest ih =>
    rw [distinct, List.nodup_cons]
    exact ⟨by simp, ih.filter _⟩

/-- Of two members of a list the one listed first has the earlier first place. -/
theorem pairwise_distinct {placed : List (List Nat × α)}
    (ordered : placed.Pairwise fun first second => first.1 < second.1) :
    (distinct (placed.map Prod.snd)).Pairwise fun x y =>
      ∃ first, (first, x) ∈ placed ∧ ∀ place, (place, y) ∈ placed → first < place := by
  induction placed with
  | nil => exact .nil
  | cons head rest ih =>
    obtain ⟨top, x⟩ := head
    obtain ⟨least, ordered⟩ := List.pairwise_cons.mp ordered
    rw [List.map_cons, distinct, List.pairwise_cons]
    constructor
    · intro y member
      have other : y ≠ x := of_decide_eq_true (List.mem_filter.mp member).2
      refine ⟨top, List.mem_cons_self, fun place found => ?_⟩
      rcases List.mem_cons.mp found with same | below
      · exact absurd (congrArg Prod.snd same) other
      · exact least _ below
    · refine ((ih ordered).filter _).imp_of_mem fun {y z} first second earlier => ?_
      have other : z ≠ x := of_decide_eq_true (List.mem_filter.mp second).2
      obtain ⟨place, found, before⟩ := earlier
      refine ⟨place, List.mem_cons_of_mem _ found, fun later found => ?_⟩
      rcases List.mem_cons.mp found with same | below
      · exact absurd (congrArg Prod.snd same) other
      · exact before later below

theorem Enumerates.distinct {occurs : List Nat → α → Prop} {xs : List α}
    (enumerates : Enumerates occurs xs) : ListsFirst occurs (distinct xs) := by
  obtain ⟨placed, rfl, ordered, placed_iff⟩ := enumerates
  refine ⟨fun x => ?_, nodup_distinct _, ?_⟩
  · simp only [mem_distinct, List.mem_map, Prod.exists, exists_eq_right, placed_iff]
  · simpa only [placed_iff] using pairwise_distinct ordered

end Places

namespace Filter

/-- The methods that a filter itself reads, not through its members. -/
def operands : Filter → List Method
  | compare _ lhs rhs | crossAbove lhs rhs | crossBelow lhs rhs => [lhs, rhs]
  | between operand _ _ => [operand]
  | always _ | all _ | any _ | not _ => []

/-- The filters that a filter puts together. -/
def members : Filter → List Filter
  | all args | any args => args
  | not arg => [arg]
  | always _ | compare .. | crossAbove .. | crossBelow .. | between .. => []

/-- A method is an operand of a filter or of one of its members. -/
inductive OperandAt : Filter → List Nat → Method → Prop
  | own {f : Filter} {k : Nat} {m : Method} : f.operands[k]? = some m → OperandAt f [k] m
  | inner {f g : Filter} {k : Nat} {rest : List Nat} {m : Method} :
      f.members[k]? = some g → OperandAt g rest m → OperandAt f (k :: rest) m

end Filter

inductive ExitRule.OperandAt : ExitRule → List Nat → Method → Prop
  | takeProfit {target : Float} {price : Method} : OperandAt (.takeProfit target price) [0] price
  | stopLoss {target : Float} {price : Method} : OperandAt (.stopLoss target price) [0] price
  | signal {f : Filter} {rest : List Nat} {m : Method} :
      f.OperandAt rest m → OperandAt (.signal f) (0 :: rest) m

/-- The entry comes first, the price second and the exits third. -/
inductive Strategy.OperandAt (s : Strategy) : List Nat → Method → Prop
  | entry {rest : List Nat} {m : Method} :
      s.entry.OperandAt rest m → OperandAt s (0 :: rest) m
  | price : OperandAt s [1] s.price
  | exits {k : Nat} {rule : ExitRule} {rest : List Nat} {m : Method} :
      s.exits[k]? = some rule → rule.OperandAt rest m → OperandAt s (2 :: k :: rest) m

namespace Filter

theorem methodsOf_eq_flatMap (fs : List Filter) : methodsOf fs = fs.flatMap methods := by
  induction fs with
  | nil => rfl
  | cons f rest ih => rw [methodsOf, List.flatMap_cons, ih]

theorem methods_eq (f : Filter) : f.methods = f.operands ++ f.members.flatMap methods := by
  cases f <;> simp [methods, methodsOf_eq_flatMap, operands, members]

theorem operands_or_members_eq_nil (f : Filter) : f.operands = [] ∨ f.members = [] := by
  cases f <;> simp [operands, members]

theorem sizeOf_lt_of_mem_members {f g : Filter} (member : g ∈ f.members) :
    sizeOf g < sizeOf f := by
  cases f with
  | always | compare | crossAbove | crossBelow | between => cases member
  | all args | any args =>
    have smaller : sizeOf g < sizeOf args := List.sizeOf_lt_of_mem member
    simp only [all.sizeOf_spec, any.sizeOf_spec]
    omega
  | not arg =>
    obtain rfl := List.mem_singleton.mp member
    simp only [not.sizeOf_spec]
    omega

/-- A visit of a filter lists its operands in the order of their places. -/
theorem enumerates (f : Filter) : Enumerates f.OperandAt f.methods := by
  have inner : Enumerates (Among OperandAt 0 f.members) (f.members.flatMap methods) :=
    enumerates_flatMap (fun g member => enumerates g) 0
  rw [methods_eq]
  refine ((enumerates_ofList f.operands).append inner ?_).congr fun place m => ⟨?_, ?_⟩
  · -- No filter has both operands and members.
    rintro _ _ _ _ ⟨k, -, present⟩ ⟨j, g, rest, present', -, -⟩
    rcases f.operands_or_members_eq_nil with empty | empty
    · simp [empty] at present
    · simp [empty] at present'
  · rintro (⟨k, rfl, present⟩ | ⟨k, g, rest, present, rfl, found⟩)
    · exact .own present
    · rw [Nat.zero_add]
      exact .inner present found
  · rintro (present | ⟨present, found⟩)
    · exact .inl ⟨_, rfl, present⟩
    · exact .inr ⟨_, _, _, present, by rw [Nat.zero_add], found⟩
termination_by f
decreasing_by exact sizeOf_lt_of_mem_members member

end Filter

theorem ExitRule.enumerates (rule : ExitRule) : Enumerates rule.OperandAt rule.methods := by
  cases rule with
  | takeProfit target price =>
    refine (Enumerates.single [0] price).congr fun place m => ⟨?_, ?_⟩
    · rintro ⟨rfl, rfl⟩
      exact .takeProfit
    · rintro ⟨⟩
      exact ⟨rfl, rfl⟩
  | stopLoss target price =>
    refine (Enumerates.single [0] price).congr fun place m => ⟨?_, ?_⟩
    · rintro ⟨rfl, rfl⟩
      exact .stopLoss
    · rintro ⟨⟩
      exact ⟨rfl, rfl⟩
  | signal f =>
    refine (f.enumerates.under 0).congr fun place m => ⟨?_, ?_⟩
    · rintro ⟨rest, rfl, found⟩
      exact .signal found
    · rintro ⟨⟩
      exact ⟨_, rfl, ‹_›⟩

namespace Strategy

/-- A visit of a strategy lists its operands in the order of their places. -/
theorem enumerates (s : Strategy) :
    Enumerates s.OperandAt (s.entry.methods ++ s.price :: s.exits.flatMap ExitRule.methods) := by
  have exits : Enumerates (Among ExitRule.OperandAt 0 s.exits)
      (s.exits.flatMap ExitRule.methods) :=
    enumerates_flatMap (fun rule _ => rule.enumerates) 0
  have visit := (s.entry.enumerates.under 0).append
    ((Enumerates.single [1] s.price).append (exits.under 2) ?_) ?_
  · refine visit.congr fun place m => ⟨?_, ?_⟩
    · rintro (⟨rest, rfl, found⟩ | ⟨rfl, rfl⟩ | ⟨_, rfl, k, rule, rest, present, rfl, found⟩)
      · exact .entry found
      · exact .price
      · rw [Nat.zero_add]
        exact .exits present found
    · rintro (found | _ | ⟨present, found⟩)
      · exact .inl ⟨_, rfl, found⟩
      · exact .inr (.inl ⟨rfl, rfl⟩)
      · exact .inr (.inr ⟨_, rfl, _, _, _, present, by rw [Nat.zero_add], found⟩)
  · rintro _ _ _ _ ⟨rfl, -⟩ ⟨rest, rfl, -⟩
    exact List.cons_lt_cons_iff.mpr (.inl (by decide))
  · rintro _ _ _ _ ⟨p, rfl, -⟩ (⟨rfl, -⟩ | ⟨q, rfl, -⟩)
    · exact List.cons_lt_cons_iff.mpr (.inl (by decide))
    · exact List.cons_lt_cons_iff.mpr (.inl (by decide))

theorem methods_listsFirst (s : Strategy) : ListsFirst s.OperandAt s.methods :=
  s.enumerates.distinct

example :
    let average : Method := .sma 3 (.field .close)
    let calm : Filter := .not (.compare .gt (.atr 2) average)
    let entry : Filter := .all [.crossAbove (.field .close) average, calm]
    let exit : ExitRule := .signal (.compare .lt (.field .low) average)
    (Strategy.mk "calm" "" entry (.field .opening) [exit]).methods =
      [.field .close, average, .atr 2, .field .opening, .field .low] := by
  decide

end Strategy

end TradingRules
