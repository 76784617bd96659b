import TradingRules.Proofs.Store

/-!
# Longer histories

Newer quotes are put in front of a history and move everything in it to larger indices. What a rule
answers at an older bar is not changed by them: the same value, or an error on both sides, although
the two errors speak of different indices.
-/

namespace TradingRules

theorem mem_newestFirst {q : Quote} {quotes : List Quote} :
    q ∈ newestFirst quotes ↔ q ∈ quotes := by
  suffices h : ∀ placed : List Quote,
      q ∈ quotes.foldl (fun placed q => place q placed) placed ↔ q ∈ placed ∨ q ∈ quotes by
    simpa [newestFirst] using h []
  induction quotes with
  | nil => simp
  | cons r rest ih =>
    intro placed
    rw [List.foldl_cons, ih, mem_place, List.mem_cons, or_comm (a := q = r), or_assoc]

theorem length_place (q : Quote) (quotes : List Quote) :
    (place q quotes).length = quotes.length + 1 := by
  induction quotes with
  | nil => rfl
  | cons r older ih =>
    unfold place
    split
    · rfl
    · rw [List.length_cons, ih, List.length_cons]

theorem length_newestFirst (quotes : List Quote) : (newestFirst quotes).length = quotes.length := by
  suffices h : ∀ placed : List Quote,
      (quotes.foldl (fun placed q => place q placed) placed).length =
        placed.length + quotes.length by
    simpa [newestFirst] using h []
  induction quotes with
  | nil => exact fun placed => rfl
  | cons q rest ih =>
    intro placed
    rw [List.foldl_cons, ih, length_place, List.length_cons]
    omega

/-- A quote goes in front of all that are not newer. -/
theorem place_append {q : Quote} {old : List Quote} (later : ∀ r ∈ old, r.time ≤ q.time)
    (front : List Quote) : place q (front ++ old) = place q front ++ old := by
  induction front with
  | nil =>
    cases old with
    | nil => rfl
    | cons r older =>
      have newest : r.time ≤ q.time := later r List.mem_cons_self
      simp only [List.nil_append, place, if_pos newest, List.cons_append]
  | cons r rest ih =>
    simp only [List.cons_append, place, ih]
    split <;> rfl

/-- Quotes that are not older than a history come in front of it, in their own order. -/
theorem newestFirst_append {older newer : List Quote}
    (later : ∀ q ∈ older, ∀ r ∈ newer, q.time ≤ r.time) :
    newestFirst (older ++ newer) = newestFirst newer ++ newestFirst older := by
  suffices h : ∀ front : List Quote,
      newer.foldl (fun placed q => place q placed) (front ++ newestFirst older) =
        newer.foldl (fun placed q => place q placed) front ++ newestFirst older by
    rw [newestFirst, List.foldl_append]
    exact h []
  induction newer with
  | nil => exact fun front => rfl
  | cons r rest ih =>
    intro front
    have newest : ∀ q ∈ newestFirst older, q.time ≤ r.time := fun q member =>
      later q (mem_newestFirst.mp member) r List.mem_cons_self
    rw [List.foldl_cons, place_append newest, List.foldl_cons]
    have all_later : ∀ q ∈ older, ∀ r' ∈ rest, q.time ≤ r'.time :=
      fun q member r' later_member => later q member r' (List.mem_cons_of_mem _ later_member)
    exact ih all_later _

/-- A tape goes on from another one with newer bars: at the older bars, counted from the newest,
it has the same values and lacks the same ones. -/
structure Tape.Extends (later earlier : Tape) (d : Nat) : Prop where
  length : later.length = earlier.length + d
  value : ∀ m i, (later.value m (i + d)).toOption = (earlier.value m i).toOption

theorem RangeError.check_shift (i n d : Nat) :
    (check (i + d) (n + d)).toOption = (check i n).toOption := by
  simp only [check, Nat.add_lt_add_iff_right]
  split <;> rfl

namespace Filter

variable {later earlier : Tape} {d : Nat}

theorem related_extends (longer : later.Extends earlier d) (i : Nat)
    (relation : Float → Float → Bool) (lhs rhs : Method) :
    (related later (i + d) relation lhs rhs).toOption =
      (related earlier i relation lhs rhs).toOption := by
  simp only [related, toOption_bind, longer.value, pure_eq_ok]

theorem crossed_extends (longer : later.Extends earlier d) (i : Nat)
    (now before : Float → Float → Bool) (lhs rhs : Method) :
    (crossed later (i + d) now before lhs rhs).toOption =
      (crossed earlier i now before lhs rhs).toOption := by
  have yesterday : i + d + 1 = i + 1 + d := by omega
  simp only [crossed, toOption_bind, yesterday, longer.length, RangeError.check_shift,
    related_extends longer, pure_eq_ok]

mutual

theorem evaluate_extends (longer : later.Extends earlier d) (i : Nat) :
    (f : Filter) → (f.evaluate later (i + d)).toOption = (f.evaluate earlier i).toOption
  | always b => rfl
  | compare op lhs rhs => related_extends longer i op.holds lhs rhs
  | crossAbove lhs rhs => crossed_extends longer i _ _ lhs rhs
  | crossBelow lhs rhs => crossed_extends longer i _ _ lhs rhs
  | between operand lower upper => by
    simp only [evaluate, toOption_bind, longer.value, pure_eq_ok]
  | all args => by
    rw [evaluate, evaluate]
    exact evaluateAll_extends longer i args
  | any args => by
    rw [evaluate, evaluate]
    exact evaluateAny_extends longer i args
  | not arg => by
    simp only [evaluate, toOption_bind, evaluate_extends longer i arg, pure_eq_ok]

theorem evaluateAll_extends (longer : later.Extends earlier d) (i : Nat) : (fs : List Filter) →
    (evaluateAll later (i + d) fs).toOption = (evaluateAll earlier i fs).toOption
  | [] => rfl
  | f :: rest => by
    rw [evaluateAll, evaluateAll]
    exact toOption_branch (evaluate_extends longer i f) (evaluateAll_extends longer i rest) rfl

theorem evaluateAny_extends (longer : later.Extends earlier d) (i : Nat) : (fs : List Filter) →
    (evaluateAny later (i + d) fs).toOption = (evaluateAny earlier i fs).toOption
  | [] => rfl
  | f :: rest => by
    rw [evaluateAny, evaluateAny]
    exact toOption_branch (evaluate_extends longer i f) rfl (evaluateAny_extends longer i rest)

end

end Filter

section Decisions

variable {later earlier : Tape} {d : Nat}

theorem ExitRule.fires_extends (longer : later.Extends earlier d) (i : Nat) (rule : ExitRule) :
    (rule.fires later (i + d)).toOption = (rule.fires earlier i).toOption := by
  cases rule with
  | takeProfit target price => simp only [fires, toOption_bind, longer.value, pure_eq_ok]
  | stopLoss target price => simp only [fires, toOption_bind, longer.value, pure_eq_ok]
  | signal filter => exact filter.evaluate_extends longer i

/-- What is triggered, as far as values go, depends on the values of the answers only. -/
theorem toOption_triggered_cons (t : Tape) (i : Nat) (rule : ExitRule) (rest : List ExitRule) :
    (triggered t i (rule :: rest)).toOption =
      match (rule.fires t i).toOption with
      | some true => some (some rule)
      | some false => (triggered t i rest).toOption
      | none => (triggered t i rest).toOption.bind (Option.map some) := by
  rw [triggered]
  cases rule.fires t i with
  | ok fires => cases fires <;> rfl
  | error e =>
    cases triggered t i rest with
    | ok found => cases found <;> rfl
    | error e' => rfl

theorem triggered_extends (longer : later.Extends earlier d) (i : Nat) (rules : List ExitRule) :
    (triggered later (i + d) rules).toOption = (triggered earlier i rules).toOption := by
  induction rules with
  | nil => rfl
  | cons rule rest ih =>
    rw [toOption_triggered_cons, toOption_triggered_cons, rule.fires_extends longer, ih]

/-- A position seen from newer bars. -/
def Position.shift (p : Position) (d : Nat) : Position :=
  { p with entryIndex := p.entryIndex + d }

/-- A bar seen from newer bars. -/
def Bar.shift (b : Bar) (d : Nat) : Bar :=
  { b with index := b.index + d }

theorem Strategy.enter_extends (longer : later.Extends earlier d) (s : Strategy) (b : Bar) :
    (s.enter later (b.shift d)).toOption =
      (s.enter earlier b).toOption.map (Option.map fun p => p.shift d) := by
  simp only [enter, Bar.shift, toOption_bind, s.entry.evaluate_extends longer]
  cases (s.entry.evaluate earlier b.index).toOption with
  | none => rfl
  | some holds =>
    cases holds with
    | false => rfl
    | true =>
      simp only [Option.bind_some, if_true, toOption_bind, longer.value]
      cases (earlier.value s.price b.index).toOption <;> rfl

theorem Strategy.leave_extends (longer : later.Extends earlier d) (s : Strategy) (b : Bar) :
    (s.leave later (b.shift d)).toOption = (s.leave earlier b).toOption := by
  simp only [leave, Bar.shift, toOption_bind, triggered_extends longer]
  congr 1
  funext found
  cases found with
  | none => rfl
  | some rule => simp only [toOption_bind, longer.value]

end Decisions

/-- An asset goes on from another one if its history does. -/
theorem Asset.tape_extends {later earlier : Asset} {newer : List Quote}
    (longer : later.history = newer ++ earlier.history) :
    later.tape.Extends earlier.tape newer.length := by
  constructor
  · have total := congrArg List.length longer
    rw [List.length_append, length_history, length_history] at total
    simp only [tape, total]
    omega
  · intro m i
    have older : earlier.history = later.history.drop newer.length := by
      rw [longer, List.drop_left]
    simp only [tape, m.valueAt_eq, Series.toOption_read]
    rw [older, m.values_drop, List.getElem?_drop, Nat.add_comm]

end TradingRules
