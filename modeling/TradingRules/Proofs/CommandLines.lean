import TradingRules.Command.Arguments
import TradingRules.Proofs.Results

/-!
# Options with values

An option takes any value behind an equals sign, and in the next argument any value that does not
begin with a hyphen. So every symbol can be given to the commands that take one.
-/

namespace TradingRules.Arguments

/-- An option with its value behind an equals sign. -/
def Flag.given (flag : Flag) (value : String) : String := "--" ++ flag.long ++ "=" ++ value

section Options

variable {verb : Verb} {p : Progress} {flag : Flag} {value : String}

theorem step_given (allowed : flag ∈ verb.flags) :
    p.step verb (flag.given value) = p.start flag (some value) := by
  have characters : (flag.given value).toList =
      '-' :: '-' :: (flag.long.toList ++ '=' :: value.toList) := by
    simp [Flag.given]
  have read : p.long verb (flag.long.toList ++ '=' :: value.toList) =
      p.start flag (some (String.ofList value.toList)) := by
    cases verb <;> cases flag <;> first | rfl | exact absurd allowed (by decide)
  rw [Progress.step, characters]
  change p.long verb (flag.long.toList ++ '=' :: value.toList) = _
  rw [read, String.ofList_toList]

theorem step_name (allowed : flag ∈ verb.flags) :
    p.step verb ("--" ++ flag.long) = p.start flag none := by
  cases verb <;> cases flag <;> first | rfl | exact absurd allowed (by decide)

theorem step_value (awaited : p.pending = some (flag, none))
    (unhyphened : value.toList.head? ≠ some '-') :
    p.step verb value = .ok { p with pending := some (flag, some value) } := by
  rw [Progress.step, awaited]
  split
  · rename_i body hyphened
    rw [hyphened] at unhyphened
    exact absurd rfl unhyphened
  · rename_i letter rest hyphened
    rw [hyphened] at unhyphened
    exact absurd rfl unhyphened
  · rename_i other same _ _
    cases same
    rfl
  · rename_i other
    exact absurd rfl (other flag)

theorem options_cons {argument : String} (more : argument ≠ "--") (rest : List String) :
    options verb p (argument :: rest) = (p.step verb argument >>= (options verb · rest)) := by
  rw [options, if_neg more]

theorem given_ne : flag.given value ≠ "--" := by
  intro same
  have shorter := congrArg String.length same
  rw [Flag.given, String.length_append, String.length_append] at shorter
  have longer : 2 < ("--" ++ flag.long).length + "=".length := by
    cases flag <;> decide
  have two : "--".length = 2 := by rfl
  omega

theorem name_ne : "--" ++ flag.long ≠ "--" := by
  cases flag <;> decide

theorem value_ne (unhyphened : value.toList.head? ≠ some '-') : value ≠ "--" := by
  rintro rfl
  exact unhyphened rfl

theorem give_eq (fresh : p.given.lookup flag = none)
    (filled : value ≠ "" ∨ flag.mayBeEmpty = true) :
    p.give flag value = .ok { p with given := (flag, value) :: p.given } := by
  have usable : (value.isEmpty && !flag.mayBeEmpty) = false := by
    rcases filled with some_value | empty
    · simp [some_value]
    · simp [empty]
  rw [Progress.give, fresh, usable]
  rfl

/-- An option that is new takes the value behind its equals sign. -/
theorem options_given {given : List (Flag × String)} (allowed : flag ∈ verb.flags)
    (fresh : given.lookup flag = none) (filled : value ≠ "" ∨ flag.mayBeEmpty = true)
    (rest : List String) :
    options verb ⟨given, none⟩ (flag.given value :: rest) =
      options verb ⟨(flag, value) :: given, none⟩ rest := by
  have taken : Progress.start ⟨given, none⟩ flag (some value) =
      .ok ⟨(flag, value) :: given, none⟩ := give_eq fresh filled
  rw [options_cons given_ne, step_given allowed, taken, ok_bind]

/-- An option that is new takes the next argument, if that does not begin with a hyphen. -/
theorem options_name {given : List (Flag × String)} (allowed : flag ∈ verb.flags)
    (fresh : given.lookup flag = none) (filled : value ≠ "" ∨ flag.mayBeEmpty = true)
    (unhyphened : value.toList.head? ≠ some '-') :
    options verb ⟨given, none⟩ ["--" ++ flag.long, value] =
      .ok ⟨(flag, value) :: given, none⟩ := by
  have begun : Progress.start ⟨given, none⟩ flag none = .ok ⟨given, some (flag, none)⟩ := by rfl
  rw [options_cons name_ne, step_name allowed, begun, ok_bind, options_cons (value_ne unhyphened),
    step_value rfl unhyphened, ok_bind]
  exact give_eq fresh filled

end Options

/-! ## Symbols on the command line -/

section Symbols

variable {config s method : String}

theorem parse_backtest (located : config ≠ "") :
    parse ["backtest", Flag.config.given config, Flag.symbol.given s] =
      .ok (.backtest config (some s)) := by
  change (do command .backtest (← options .backtest ⟨[], none⟩
    [Flag.config.given config, Flag.symbol.given s])) = _
  rw [options_given (by decide) rfl (.inl located), options_given (by decide) rfl (.inr rfl)]
  rfl

theorem parse_backtest_name (located : config ≠ "") (unhyphened : s.toList.head? ≠ some '-') :
    parse ["backtest", Flag.config.given config, "--symbol", s] =
      .ok (.backtest config (some s)) := by
  change (do command .backtest (← options .backtest ⟨[], none⟩
    [Flag.config.given config, "--" ++ Flag.symbol.long, s])) = _
  rw [options_given (by decide) rfl (.inl located),
    options_name (by decide) rfl (.inr rfl) unhyphened]
  rfl

theorem parse_tabulate (located : config ≠ "") (described : method ≠ "") :
    parse ["export", Flag.config.given config, Flag.method.given method, Flag.symbol.given s] =
      .ok (.tabulate config s method) := by
  change (do command .tabulate (← options .tabulate ⟨[], none⟩
    [Flag.config.given config, Flag.method.given method, Flag.symbol.given s])) = _
  rw [options_given (by decide) rfl (.inl located), options_given (by decide) rfl (.inl described),
    options_given (by decide) rfl (.inr rfl)]
  rfl

theorem parse_tabulate_name (located : config ≠ "") (described : method ≠ "")
    (unhyphened : s.toList.head? ≠ some '-') :
    parse ["export", Flag.config.given config, Flag.method.given method, "--symbol", s] =
      .ok (.tabulate config s method) := by
  change (do command .tabulate (← options .tabulate ⟨[], none⟩
    [Flag.config.given config, Flag.method.given method, "--" ++ Flag.symbol.long, s])) = _
  rw [options_given (by decide) rfl (.inl located), options_given (by decide) rfl (.inl described),
    options_name (by decide) rfl (.inr rfl) unhyphened]
  rfl

/-- Commands with a symbol, in either place where it can stand. -/
structure SymbolGiven (config method s : String) : Prop where
  backtest : parse ["backtest", Flag.config.given config, Flag.symbol.given s] =
    .ok (.backtest config (some s))
  backtest_next : s.toList.head? ≠ some '-' →
    parse ["backtest", Flag.config.given config, "--symbol", s] = .ok (.backtest config (some s))
  table : parse ["export", Flag.config.given config, Flag.method.given method,
    Flag.symbol.given s] = .ok (.tabulate config s method)
  table_next : s.toList.head? ≠ some '-' →
    parse ["export", Flag.config.given config, Flag.method.given method, "--symbol", s] =
      .ok (.tabulate config s method)

theorem symbolGiven (located : config ≠ "") (described : method ≠ "") :
    SymbolGiven config method s where
  backtest := parse_backtest located
  backtest_next := parse_backtest_name located
  table := parse_tabulate located described
  table_next := parse_tabulate_name located described

end Symbols

end TradingRules.Arguments
