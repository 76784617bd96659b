import TradingRules.Proofs.FiniteTrees
import TradingRules.Proofs.NormalForms
import TradingRules.Proofs.Phrases
import TradingRules.Proofs.ShortestText

/-!
# Printed trees

The text of a method, a filter or an exit rule is that of a phrase: numbers and columns are words,
and every other node is called by a name that no other kind of node has, with its parameters in
brackets. As long as all numbers in a tree are finite its text says all of it, down to the signs of
its zeros.
-/

namespace TradingRules

open Printed

namespace Printed

/-! ## Lists of arguments -/

def Rest.ofList (s : Separator) : List Phrase → Rest
  | [] => .done
  | p :: ps => .next s p (ofList s ps)

def Args.ofList (s : Separator) : List Phrase → Args
  | [] => .none
  | p :: ps => .first p (.ofList s ps)

section Lists

variable {s : Separator} {ps qs : List Phrase}

theorem rest_ofList_inj (same : Rest.ofList s ps = Rest.ofList s qs) : ps = qs := by
  induction ps generalizing qs with
  | nil =>
    cases qs with
    | nil => rfl
    | cons q qs => cases same
  | cons p ps ih =>
    cases qs with
    | nil => cases same
    | cons q qs =>
      injection same with _ first others
      rw [first, ih others]

theorem args_ofList_inj (same : Args.ofList s ps = Args.ofList s qs) : ps = qs := by
  cases ps with
  | nil =>
    cases qs with
    | nil => rfl
    | cons q qs => cases same
  | cons p ps =>
    cases qs with
    | nil => cases same
    | cons q qs =>
      injection same with first others
      rw [first, rest_ofList_inj others]

theorem rest_print_ofList (s : Separator) (ps : List Phrase) :
    (Rest.ofList s ps).print = ps.flatMap (fun p => s.text ++ p.print) ++ [')'] := by
  induction ps with
  | nil => rfl
  | cons p ps ih =>
    rw [Rest.ofList, Rest.print, ih, List.flatMap_cons, List.append_assoc, List.append_assoc]

/-- Arguments are written with separators between them. -/
theorem args_print_ofList (s : Separator) (ps : List Phrase) :
    (Args.ofList s ps).print = s.text.intercalate (ps.map Phrase.print) ++ [')'] := by
  cases ps with
  | nil => rfl
  | cons p ps =>
    have joined : s.text.intercalate ((p :: ps).map Phrase.print) =
        p.print ++ ps.flatMap (fun p => s.text ++ p.print) := by
      induction ps generalizing p with
      | nil => simp
      | cons q qs ih =>
        rw [List.map_cons, List.map_cons, List.intercalate_cons_cons, ← List.map_cons, ih]
        simp
    rw [Args.ofList, Args.print, rest_print_ofList, joined, List.append_assoc]

end Lists

/-! ## Names -/

/-- What stands in front of brackets. -/
inductive Heading where
  | absDiff
  | atr
  | sma
  | ema
  | bollinger (output : Band)
  | macd (output : MacdOutput)
  | stochastic (output : StochasticOutput)
  | compare (op : Comparison)
  | crossAbove
  | crossBelow
  | between
  | all
  | any
  | not
  | takeProfit
  | stopLoss
  | signal

instance : Named Heading where
  all := [.absDiff, .atr, .sma, .ema] ++ (Named.all : List Band).map .bollinger ++
    (Named.all : List MacdOutput).map .macd ++
    (Named.all : List StochasticOutput).map .stochastic ++
    (Named.all : List Comparison).map .compare ++ [.crossAbove, .crossBelow, .between, .all, .any,
    .not, .takeProfit, .stopLoss, .signal]
  name
    | .absDiff => "abs_diff"
    | .atr => "ATR"
    | .sma => "SMA"
    | .ema => "EMA"
    | .bollinger output => "BOLLINGER_" ++ name output
    | .macd output => "MACD_" ++ name output
    | .stochastic output => "STOCHASTIC_" ++ name output
    | .compare op => name op
    | .crossAbove => "cross_above"
    | .crossBelow => "cross_below"
    | .between => "between"
    | .all => "and"
    | .any => "or"
    | .not => "not"
    | .takeProfit => "take_profit"
    | .stopLoss => "stop_loss"
    | .signal => "signal"

theorem heading_injective : Function.Injective (name : Heading → String) := by
  apply Named.name_injective
  intro heading
  cases heading <;> first | rfl | (rename_i output; cases output <;> rfl)

def Heading.word (heading : Heading) : Word where
  text := name heading
  whole := by cases heading <;> first | rfl | (rename_i output; cases output <;> rfl)

/-- A heading with arguments. -/
def called (heading : Heading) (s : Separator) (ps : List Phrase) : Phrase :=
  .call heading.word (.ofList s ps)

theorem heading_of_called {heading heading' : Heading} {s s' : Separator} {ps ps' : List Phrase}
    (same : called heading s ps = called heading' s' ps') : heading = heading' := by
  injection same with words
  exact heading_injective (congrArg Word.text words)

theorem args_of_called {heading heading' : Heading} {s : Separator} {ps ps' : List Phrase}
    (same : called heading s ps = called heading' s ps') : ps = ps' := by
  injection same with _ args
  exact args_ofList_inj args

theorem print_called (heading : Heading) (s : Separator) (ps : List Phrase) :
    (called heading s ps).print =
      (name heading).toList ++ '(' :: (s.text.intercalate (ps.map Phrase.print) ++ [')']) := by
  rw [called, Phrase.print, args_print_ofList]
  rfl

/-! ## Words -/

theorem wordCharacter_of_isDigit {c : Char} (digit : c.isDigit = true) :
    wordCharacter c = true := by
  simp [wordCharacter, Char.isAlphanum, digit]

def numberWord (x : Float) : Word where
  text := Decimal.shortestText x
  whole := by
    cases known : Decimal.parts x with
    | nan =>
      rw [Decimal.shortestText, known]
      rfl
    | infinite negative =>
      rw [Decimal.shortestText, known]
      cases negative <;> rfl
    | finite negative m =>
      obtain ⟨filled, characters⟩ := (Decimal.denotes_magnitude m).characters
      rw [isWord_iff, Ne, ← String.toList_eq_nil_iff, Decimal.shortestText_eq known]
      refine ⟨List.append_ne_nil_of_right_ne_nil _ filled, ?_⟩
      intro c member
      rcases List.mem_append.mp member with sign | digit
      · cases negative with
        | false => cases sign
        | true =>
          obtain rfl := List.mem_singleton.mp sign
          rfl
      · rcases characters c digit with digit | rfl
        · exact wordCharacter_of_isDigit digit
        · rfl

def countWord (n : Nat) : Word where
  text := toString n
  whole := by
    refine isWord_iff.mpr ⟨Nat.repr_ne_empty, ?_⟩
    intro c member
    have digit : c ∈ Nat.toDigits 10 n := by
      rw [← Nat.toList_repr]
      exact member
    exact wordCharacter_of_isDigit (Decimal.digits_toDigits n c digit)

theorem print_number (x : Float) :
    (Phrase.word (numberWord x)).print = (Decimal.shortestText x).toList := rfl

theorem print_count (n : Nat) : (Phrase.word (countWord n)).print = (toString n).toList := rfl

theorem countWord_injective : Function.Injective countWord := by
  intro m n same
  injection same with texts
  have digits := congrArg String.toList texts
  rw [Nat.toString_eq_repr, Nat.toString_eq_repr, Nat.toList_repr, Nat.toList_repr] at digits
  rw [← Decimal.digitsValue_toDigits m, digits, Decimal.digitsValue_toDigits]

theorem counts_inj {m n : Nat} :
    Phrase.word (countWord m) = Phrase.word (countWord n) ↔ m = n := by
  rw [Phrase.word.injEq, countWord_injective.eq_iff]

theorem numbers_inj {x y : Float} (hx : x.isFinite = true) (hy : y.isFinite = true) :
    Phrase.word (numberWord x) = Phrase.word (numberWord y) ↔ x = y := by
  constructor
  · intro same
    injection same with words
    injection words with texts
    exact Decimal.shortestText_injective hx hy texts
  · rintro rfl
    rfl

def fieldWord (f : Field) : Word where
  text := name f
  whole := by cases f <;> rfl

theorem fieldWord_injective : Function.Injective fieldWord :=
  fun _ _ same => Field.name_injective (congrArg Word.text same)

/-- No column is called like a number. -/
theorem numberWord_ne_fieldWord {x : Float} (finite : x.isFinite = true) (f : Field) :
    numberWord x ≠ fieldWord f := by
  intro same
  injection same with texts
  have characters := Decimal.shortestText_characters finite
  rw [texts] at characters
  cases f <;> rcases characters _ List.mem_cons_self with digit | point | minus <;>
    first | cases digit | cases point | cases minus

def truthWord (b : Bool) : Word where
  text := if b then "true" else "false"
  whole := by cases b <;> rfl

end Printed

namespace Method

/-- What a method is written as. -/
def phrase : Method → Phrase
  | value x => .word (numberWord x)
  | field f => .word (fieldWord f)
  | absDiff lhs rhs => called .absDiff .spacedComma [lhs.phrase, rhs.phrase]
  | atr period => called .atr .comma [.word (countWord period)]
  | sma period source => called .sma .spacedComma [.word (countWord period), source.phrase]
  | ema period source => called .ema .spacedComma [.word (countWord period), source.phrase]
  | bollinger period multiplier output =>
    called (.bollinger output) .comma [.word (countWord period), .word (numberWord multiplier)]
  | macd fast slow signal output => called (.macd output) .comma
      [.word (countWord fast), .word (countWord slow), .word (countWord signal)]
  | stochastic kPeriod dPeriod output => called (.stochastic output) .comma
      [.word (countWord kPeriod), .word (countWord dPeriod)]

theorem print_phrase (m : Method) : m.phrase.print = m.text.toList := by
  induction m with
  | value x => rfl
  | field f => rfl
  | absDiff lhs rhs lhs_ih rhs_ih =>
    unfold phrase text
    simp [print_called, lhs_ih, rhs_ih, Separator.text, name]
  | sma period source ih | ema period source ih =>
    unfold phrase text
    simp [print_called, ih, print_count, Separator.text, name]
  | atr | bollinger | macd | stochastic =>
    unfold phrase text
    simp [print_called, print_count, print_number, Separator.text, name]

theorem phrase_injective {m m' : Method} (finite : m.Finite) (finite' : m'.Finite)
    (same : m.phrase = m'.phrase) : m = m' := by
  induction m generalizing m' with
  | value x =>
    cases m' with
    | value y => rw [(numbers_inj finite finite').mp same]
    | field f =>
      injection same with words
      exact absurd words (numberWord_ne_fieldWord finite f)
    | _ => cases same
  | field f =>
    cases m' with
    | value y =>
      injection same with words
      exact absurd words.symm (numberWord_ne_fieldWord finite' f)
    | field g =>
      injection same with words
      rw [fieldWord_injective words]
    | _ => cases same
  | absDiff lhs rhs lhs_ih rhs_ih =>
    cases m' with
    | absDiff lhs' rhs' =>
      have args := args_of_called same
      injection args with lhs_same others
      injection others with rhs_same
      rw [lhs_ih finite.1 finite'.1 lhs_same, rhs_ih finite.2 finite'.2 rhs_same]
    | value | field => cases same
    | _ => cases heading_of_called same
  | atr period =>
    cases m' with
    | atr period' =>
      have args := args_of_called same
      simp only [counts_inj, List.cons.injEq, and_true] at args
      rw [args]
    | value | field => cases same
    | _ => cases heading_of_called same
  | sma period source ih | ema period source ih =>
    cases m' with
    | sma period' source' | ema period' source' =>
      have args := args_of_called same
      simp only [counts_inj, List.cons.injEq, and_true] at args
      obtain ⟨rfl, source_same⟩ := args
      have finite_source : source'.Finite := finite'
      obtain rfl := ih finite finite_source source_same
      cases heading_of_called same <;> rfl
    | value | field => cases same
    | _ => cases heading_of_called same
  | bollinger period multiplier output =>
    cases m' with
    | bollinger period' multiplier' output' =>
      cases heading_of_called same
      have args := args_of_called same
      simp only [counts_inj, numbers_inj finite finite', List.cons.injEq, and_true] at args
      obtain ⟨rfl, rfl⟩ := args
      rfl
    | value | field => cases same
    | _ => cases heading_of_called same
  | macd fast slow signal output =>
    cases m' with
    | macd fast' slow' signal' output' =>
      cases heading_of_called same
      have args := args_of_called same
      simp only [counts_inj, List.cons.injEq, and_true] at args
      obtain ⟨rfl, rfl, rfl⟩ := args
      rfl
    | value | field => cases same
    | _ => cases heading_of_called same
  | stochastic kPeriod dPeriod output =>
    cases m' with
    | stochastic kPeriod' dPeriod' output' =>
      cases heading_of_called same
      have args := args_of_called same
      simp only [counts_inj, List.cons.injEq, and_true] at args
      obtain ⟨rfl, rfl⟩ := args
      rfl
    | value | field => cases same
    | _ => cases heading_of_called same

end Method

namespace Filter

mutual

/-- What a filter is written as. -/
def phrase : Filter → Phrase
  | always b => .word (truthWord b)
  | compare op lhs rhs => called (.compare op) .spacedComma [lhs.phrase, rhs.phrase]
  | crossAbove lhs rhs => called .crossAbove .spacedComma [lhs.phrase, rhs.phrase]
  | crossBelow lhs rhs => called .crossBelow .spacedComma [lhs.phrase, rhs.phrase]
  | between operand lower upper => called .between .spacedComma
      [operand.phrase, .word (numberWord lower), .word (numberWord upper)]
  | all args => called .all .spacedComma (phrases args)
  | any args => called .any .spacedComma (phrases args)
  | not arg => called .not .spacedComma [arg.phrase]

def phrases : List Filter → List Phrase
  | [] => []
  | f :: rest => f.phrase :: phrases rest

end

mutual

theorem print_phrase : (f : Filter) → f.phrase.print = f.text.toList
  | always b => rfl
  | compare op lhs rhs | crossAbove lhs rhs | crossBelow lhs rhs => by
    unfold phrase text
    simp [print_called, Method.print_phrase, Separator.text, name]
  | between operand lower upper => by
    unfold phrase text
    simp [print_called, Method.print_phrase, print_number, Separator.text, name]
  | all args | any args => by
    unfold phrase text
    simp [print_called, print_phrases args, Separator.text, name]
  | not arg => by
    unfold phrase text
    simp [print_called, print_phrase arg, Separator.text, name]

theorem print_phrases : (fs : List Filter) →
    (phrases fs).map Phrase.print = (texts fs).map String.toList
  | [] => rfl
  | f :: rest => by
    rw [phrases, texts, List.map_cons, List.map_cons, print_phrase f, print_phrases rest]

end

theorem operands_of_called {heading heading' : Heading} {lhs rhs lhs' rhs' : Method}
    (finite : lhs.Finite ∧ rhs.Finite) (finite' : lhs'.Finite ∧ rhs'.Finite)
    (same : called heading .spacedComma [lhs.phrase, rhs.phrase] =
      called heading' .spacedComma [lhs'.phrase, rhs'.phrase]) : lhs = lhs' ∧ rhs = rhs' := by
  have args := args_of_called same
  injection args with lhs_same others
  injection others with rhs_same
  exact ⟨Method.phrase_injective finite.1 finite'.1 lhs_same,
    Method.phrase_injective finite.2 finite'.2 rhs_same⟩

mutual

theorem eq_of_phrase_eq : (f g : Filter) → f.Finite → g.Finite → f.phrase = g.phrase → f = g
  | always b, g, _, _, same => by
    cases g with
    | always c =>
      injection same with words
      injection words with texts
      cases b <;> cases c <;> first | rfl | exact absurd texts (by decide)
    | _ => cases same
  | compare op lhs rhs, g, finite, finite', same
  | crossAbove lhs rhs, g, finite, finite', same
  | crossBelow lhs rhs, g, finite, finite', same => by
    cases g with
    | always c => cases same
    | compare op' lhs' rhs' | crossAbove lhs' rhs' | crossBelow lhs' rhs' =>
      obtain ⟨rfl, rfl⟩ := operands_of_called finite finite' same
      cases heading_of_called same <;> rfl
    | _ => cases heading_of_called same
  | between operand lower upper, g, finite, finite', same => by
    cases g with
    | always c => cases same
    | between operand' lower' upper' =>
      have args := args_of_called same
      simp only [numbers_inj finite.2.1 finite'.2.1, numbers_inj finite.2.2 finite'.2.2,
        List.cons.injEq, and_true] at args
      obtain ⟨operand_same, rfl, rfl⟩ := args
      rw [Method.phrase_injective finite.1 finite'.1 operand_same]
    | _ => cases heading_of_called same
  | all args, g, finite, finite', same | any args, g, finite, finite', same => by
    cases g with
    | always c => cases same
    | all args' | any args' =>
      have args_finite : AllFinite args' := finite'
      obtain rfl := eq_of_phrases_eq args args' finite args_finite (args_of_called same)
      cases heading_of_called same <;> rfl
    | _ => cases heading_of_called same
  | not arg, g, finite, finite', same => by
    cases g with
    | always c => cases same
    | not arg' =>
      have args := args_of_called same
      injection args with arg_same
      rw [eq_of_phrase_eq arg arg' finite finite' arg_same]
    | _ => cases heading_of_called same

theorem eq_of_phrases_eq : (fs gs : List Filter) → AllFinite fs → AllFinite gs →
    phrases fs = phrases gs → fs = gs
  | [], [], _, _, _ => rfl
  | f :: fs, g :: gs, finite, finite', same => by
    obtain ⟨head, tail⟩ := List.cons.inj same
    rw [eq_of_phrase_eq f g finite.1 finite'.1 head,
      eq_of_phrases_eq fs gs finite.2 finite'.2 tail]

end

end Filter

namespace ExitRule

/-- What an exit rule is written as. -/
def phrase : ExitRule → Phrase
  | takeProfit target price => called .takeProfit .atLeast [price.phrase, .word (numberWord target)]
  | stopLoss target price => called .stopLoss .atMost [price.phrase, .word (numberWord target)]
  | signal filter => called .signal .comma [filter.phrase]

theorem print_phrase (rule : ExitRule) : rule.phrase.print = rule.text.toList := by
  cases rule with
  | takeProfit target price | stopLoss target price =>
    unfold phrase text
    simp [print_called, Method.print_phrase, print_number, Separator.text, name]
  | signal filter =>
    unfold phrase text
    simp [print_called, Filter.print_phrase, name]

theorem target_of_called {heading : Heading} {s : Separator} {target target' : Float}
    {price price' : Method} (finite : target.isFinite = true ∧ price.Finite)
    (finite' : target'.isFinite = true ∧ price'.Finite)
    (same : called heading s [price.phrase, .word (numberWord target)] =
      called heading s [price'.phrase, .word (numberWord target')]) :
    target = target' ∧ price = price' := by
  have args := args_of_called same
  simp only [numbers_inj finite.1 finite'.1, List.cons.injEq, and_true] at args
  exact ⟨args.2, Method.phrase_injective finite.2 finite'.2 args.1⟩

theorem phrase_injective {rule rule' : ExitRule} (finite : rule.Finite) (finite' : rule'.Finite)
    (same : rule.phrase = rule'.phrase) : rule = rule' := by
  cases rule with
  | takeProfit target price =>
    cases rule' with
    | takeProfit target' price' =>
      obtain ⟨rfl, rfl⟩ := target_of_called finite finite' same
      rfl
    | _ => cases heading_of_called same
  | stopLoss target price =>
    cases rule' with
    | stopLoss target' price' =>
      obtain ⟨rfl, rfl⟩ := target_of_called finite finite' same
      rfl
    | _ => cases heading_of_called same
  | signal filter =>
    cases rule' with
    | signal filter' =>
      have args := args_of_called same
      injection args with filter_same
      rw [Filter.eq_of_phrase_eq filter filter' finite finite' filter_same]
    | _ => cases heading_of_called same

end ExitRule

/-- Printed expressions identify their trees: of methods, of filters and of exit rules whose numbers
are finite, those with one text are one tree. All numbers are, in the trees that are compiled from a
text. -/
theorem text_eq_iff_beq :
    (∀ m m' : Method, m.Finite → m'.Finite → (m.text = m'.text ↔ m == m')) ∧
    (∀ f f' : Filter, f.Finite → f'.Finite → (f.text = f'.text ↔ f == f')) ∧
    (∀ rule rule' : ExitRule, rule.Finite → rule'.Finite →
      (rule.text = rule'.text ↔ rule == rule')) ∧
    ∀ text v, Json.parse? text = some v → ∀ maxDepth,
      (∀ m, Method.compile maxDepth v = .ok m → m.Finite) ∧
      (∀ f, Filter.compile maxDepth v = .ok f → f.Finite) ∧
      ∀ s, Strategy.compile maxDepth v = .ok s → s.Finite := by
  refine ⟨?_, ?_, ?_, fun text v read maxDepth => finite_of_compile read maxDepth⟩
  · intro m m' finite finite'
    rw [beq_iff_eq]
    refine ⟨fun same => ?_, congrArg Method.text⟩
    apply Method.phrase_injective finite finite'
    exact phrase_eq_of_text_eq m.print_phrase m'.print_phrase same
  · intro f f' finite finite'
    rw [beq_iff_eq]
    refine ⟨fun same => ?_, congrArg Filter.text⟩
    apply Filter.eq_of_phrase_eq f f' finite finite'
    exact phrase_eq_of_text_eq f.print_phrase f'.print_phrase same
  · intro rule rule' finite finite'
    rw [beq_iff_eq]
    refine ⟨fun same => ?_, congrArg ExitRule.text⟩
    apply ExitRule.phrase_injective finite finite'
    exact phrase_eq_of_text_eq rule.print_phrase rule'.print_phrase same

/-- Trees that differ in the sign of a zero only are written differently. -/
theorem text_eq_iff_beq_signed_zeros :
    let document := "\x7b\"type\":\"bollinger\",\"period\":20,\"multiplier\":25e-1," ++
      "\"output\":\"upper\"\x7d"
    let bands : Method := .bollinger 20 2.5 .upper
    let range (lower : Float) : Filter := .between (.absDiff bands .closing) lower 1.0
    let filter (lower : Float) : Filter := .all [.not (range lower), .any [], .always true]
    ((Json.parse? document).bind fun v => (Method.compile 64 v).toOption) = some bands ∧
      bands.Finite ∧ bands.text = "BOLLINGER_upper(20,2.5)" ∧ bands.text ≠ Method.closing.text ∧
      (filter 0.0).Finite ∧ (filter (-0.0)).Finite ∧
      (filter (-0.0)).text =
        "and(not(between(abs_diff(BOLLINGER_upper(20,2.5), close), -0, 1)), or(), true)" ∧
      (filter 0.0).text ≠ (filter (-0.0)).text ∧
      (ExitRule.signal (filter 0.0)).text ≠ (ExitRule.signal (filter (-0.0))).text := by
  intro document bands range filter
  obtain ⟨methods, filters, rules, compiled⟩ := text_eq_iff_beq
  have read : ((Json.parse? document).bind fun v => (Method.compile 64 v).toOption) =
      some bands := by
    decide +kernel
  have bands_finite : bands.Finite := by
    obtain ⟨v, parsed, tree⟩ := Option.bind_eq_some_iff.mp read
    exact (compiled document v parsed 64).1 bands (toOption_eq_some_iff.mp tree)
  have filter_finite (lower : Float) (finite : lower.isFinite = true) : (filter lower).Finite := by
    have one : (1.0 : Float).isFinite = true := by decide
    exact ⟨⟨⟨bands_finite, trivial⟩, finite, one⟩, trivial, trivial, trivial⟩
  have plus := filter_finite 0.0 (by decide)
  have minus := filter_finite (-0.0) (by decide)
  have unlike : bands ≠ .closing := by decide +kernel
  have differ : filter 0.0 ≠ filter (-0.0) := by decide +kernel
  refine ⟨read, bands_finite, by decide +kernel, ?_, plus, minus, by decide +kernel, ?_, ?_⟩
  · intro same
    exact unlike (beq_iff_eq.mp ((methods bands .closing bands_finite trivial).mp same))
  · intro same
    exact differ (beq_iff_eq.mp ((filters _ _ plus minus).mp same))
  · intro same
    have rule_same := beq_iff_eq.mp ((rules (.signal (filter 0.0)) (.signal (filter (-0.0)))
      plus minus).mp same)
    exact differ (ExitRule.signal.inj rule_same)

end TradingRules
