import TradingRules.Proofs.Replay
import TradingRules.Proofs.Screens
import TradingRules.Universe

/-!
# From a request to its reports

Every symbol of a request leads to an asset or is skipped, as often as it is asked for and in the
order of the request, whatever mixture of assets, empty assets and failures the port has for them.
What is loaded goes on to be screened and backtested, and again each asset has one answer, its own.
-/

namespace TradingRules

namespace Universe

/-- A port has an asset with a quote for a symbol. -/
def Yields (port : String → Except Failure Asset) (symbol : String) : Prop :=
  ∃ a, port symbol = .ok a ∧ 0 < a.length

/-- Assets carry the symbols they are loaded for. -/
def Labels (port : String → Except Failure Asset) : Prop :=
  ∀ symbol a, port symbol = .ok a → a.symbol = symbol

variable {port : String → Except Failure Asset} {symbol : String} {symbols : List String}
  {u : Universe}

theorem usable_eq_ok_iff {reply : Except Failure Asset} {a : Asset} :
    usable reply = .ok a ↔ reply = .ok a ∧ 0 < a.length := by
  cases reply with
  | error failure => simp [usable]
  | ok b =>
    by_cases empty : b.length = 0
    · simp only [usable, if_pos empty, Except.ok.injEq, reduceCtorEq, false_iff]
      rintro ⟨rfl, quotes⟩
      omega
    · simp only [usable, if_neg empty, Except.ok.injEq]
      constructor
      · rintro rfl
        exact ⟨rfl, by omega⟩
      · exact fun ⟨same, _⟩ => same

theorem yields_iff : Yields port symbol ↔ ∃ a, usable (port symbol) = .ok a := by
  simp only [Yields, usable_eq_ok_iff]

instance (port : String → Except Failure Asset) : DecidablePred (Yields port) := fun symbol =>
  match found : usable (port symbol) with
  | .ok a => .isTrue (yields_iff.mpr ⟨a, found⟩)
  | .error reason => .isFalse fun yields => by
    obtain ⟨a, loaded⟩ := yields_iff.mp yields
    rw [found] at loaded
    cases loaded

/-- Every symbol of a request is in one of two classes, in the order of the request. -/
structure Divides (u : Universe) (port : String → Except Failure Asset) (symbols : List String) :
    Prop where
  assets : u.assets.map Asset.symbol = symbols.filter fun symbol => Yields port symbol
  skipped : u.skipped.map Prod.fst = symbols.filter fun symbol => ¬ Yields port symbol
  loaded : ∀ a ∈ u.assets, port a.symbol = .ok a ∧ 0 < a.length
  reasons : ∀ skip ∈ u.skipped, usable (port skip.1) = .error skip.2

theorem Divides.add (labels : Labels port) (divides : u.Divides port symbols) (symbol : String) :
    (u.add symbol (port symbol)).Divides port (symbol :: symbols) := by
  obtain ⟨assets, skipped, loaded, reasons⟩ := divides
  cases found : usable (port symbol) with
  | ok a =>
    have answer := usable_eq_ok_iff.mp found
    have yields : Yields port symbol := ⟨a, answer⟩
    have label := labels symbol a answer.1
    simp only [Universe.add, found]
    constructor
    · simp [yields, assets, label]
    · simp [yields, skipped]
    · rw [List.forall_mem_cons, label]
      exact ⟨answer, loaded⟩
    · exact reasons
  | error reason =>
    have unyielding : ¬ Yields port symbol := by
      rw [yields_iff, found]
      rintro ⟨a, loaded⟩
      cases loaded
    simp only [Universe.add, found]
    constructor
    · simp [unyielding, assets]
    · simp [unyielding, skipped]
    · exact loaded
    · rw [List.forall_mem_cons]
      exact ⟨found, reasons⟩

theorem collect_divides (labels : Labels port) (symbols : List String) :
    (collect (symbols.map fun symbol => (symbol, port symbol))).Divides port symbols := by
  induction symbols with
  | nil => exact ⟨rfl, rfl, by simp [collect], by simp [collect]⟩
  | cons symbol rest ih => exact ih.add labels symbol

/-- Without assets no symbol has one. -/
theorem Divides.isEmpty_iff (divides : u.Divides port symbols) :
    u.assets.isEmpty = true ↔ ∀ symbol ∈ symbols, ¬ Yields port symbol := by
  rw [List.isEmpty_iff, ← List.map_eq_nil_iff, divides.assets]
  simp

/-- Loading fails if no symbol has an asset, and divides the request otherwise. -/
theorem load_cases (labels : Labels port) (symbols : List String) :
    load port symbols = .error (.noQuotes (",".intercalate symbols)) ∧
        (∀ symbol ∈ symbols, ¬ Yields port symbol) ∨
      (∃ u, load port symbols = .ok u ∧ u.Divides port symbols) ∧
        ∃ symbol ∈ symbols, Yields port symbol := by
  have divides := collect_divides labels symbols
  have requested : (symbols.map fun symbol => (symbol, port symbol)).map Prod.fst = symbols := by
    rw [List.map_map]
    exact List.map_id symbols
  rw [load, ofReplies, requested]
  by_cases empty : (collect (symbols.map fun symbol => (symbol, port symbol))).assets.isEmpty = true
  · left
    rw [if_pos empty]
    exact ⟨rfl, divides.isEmpty_iff.mp empty⟩
  · right
    rw [if_neg empty]
    refine ⟨⟨_, rfl, divides⟩, ?_⟩
    rw [divides.isEmpty_iff] at empty
    simpa only [Classical.not_forall, Classical.not_not, exists_prop] using empty

end Universe

/-- The result of each asset is its own, and carries its symbol. -/
theorem backtestAll_eq (assets : List Asset) (s : Strategy) :
    ∃ ledgers : List Ledger, backtestAll assets s = ledgers.map .ok ∧
      ledgers.map Ledger.symbol = assets.map Asset.symbol := by
  refine ⟨assets.map fun a => .ofJournal a (a.replayBelow s a.length none), ?_, ?_⟩
  · rw [backtestAll, List.map_map]
    exact List.map_congr_left fun a _ => a.backtest_eq_replayBelow s
  · rw [List.map_map]
    rfl

namespace Universe

/-- What a screen and a backtest make of the assets of a universe. -/
structure Reported (u : Universe) : Prop where
  /-- An asset is in the class of its own answer. -/
  screened : ∀ f, (screen u.assets f).Classifies u.assets f
  once : ∀ f, (screen u.assets f).passed.length + (screen u.assets f).rejected.length +
    (screen u.assets f).ineligible.length = u.assets.length
  apart : ∀ f first second, u.assets = first ++ second →
    screen u.assets f = (screen first f).append (screen second f)
  /-- The result at the place of an asset is that of the asset alone. -/
  backtested : ∀ (s : Strategy) (i : Nat) (a : Asset), u.assets[i]? = some a →
    (backtestAll u.assets s)[i]? = some (a.backtest s)
  ledgers : ∀ s, ∃ ledgers : List Ledger, backtestAll u.assets s = ledgers.map .ok ∧
    ledgers.map Ledger.symbol = u.assets.map Asset.symbol

theorem reported (u : Universe) : u.Reported where
  screened f := screen_classifies u.assets f
  once f := (screen_classifies u.assets f).length
  apart f first second both := by rw [both, screen_append]
  backtested s i a present := by
    rw [backtestAll, List.getElem?_map, present]
    rfl
  ledgers s := backtestAll_eq u.assets s

variable {port : String → Except Failure Asset}

/-- From a request to its reports no symbol is lost and none appears twice. Loading fails just if no
symbol has an asset with a quote. Otherwise the assets and the symbols skipped divide the request
between them, and every asset has one place in a screen and one result of a backtest. -/
theorem load_loses_nothing (labels : Labels port) (symbols : List String) :
    (∀ fault, load port symbols = .error fault ↔
      fault = .noQuotes (",".intercalate symbols) ∧ ∀ symbol ∈ symbols, ¬ Yields port symbol) ∧
    ((∃ symbol ∈ symbols, Yields port symbol) →
      ∃ u, load port symbols = .ok u ∧ u.Divides port symbols ∧ u.Reported) := by
  rcases load_cases labels symbols with ⟨failed, none⟩ | ⟨⟨u, loaded, divides⟩, some⟩
  · rw [failed]
    constructor
    · intro fault
      rw [Except.error.injEq, eq_comm]
      exact (and_iff_left none).symm
    · rintro ⟨symbol, member, yields⟩
      exact absurd yields (none symbol member)
  · rw [loaded]
    constructor
    · intro fault
      constructor
      · rintro ⟨⟩
      · rintro ⟨-, none⟩
        obtain ⟨symbol, member, yields⟩ := some
        exact absurd yields (none symbol member)
    · intro _
      exact ⟨u, rfl, divides, u.reported⟩

/-- A request with a symbol in it twice, an empty asset and a fault, and a screen that needs two
bars: four assets are loaded, two symbols are skipped with their reasons, and all three classes of
the screen are taken. Asked for the skipped symbols alone, loading fails and names them both. -/
theorem load_loses_nothing_mixed :
    let day (n : Fin 31) (close : Float) : Quote := ⟨⟨2024, 1, n + 1, 0, 0, 0, by decide, by decide,
      ⟨Nat.succ_pos n, n.isLt⟩, by decide, by decide, by decide⟩, close, close, close, close, 1000⟩
    let files : List (String × List Quote) := [("RISING", [day 0 10.0, day 1 12.0]),
      ("FALLING", [day 0 12.0, day 1 10.0]), ("NEW", [day 1 11.0]), ("EMPTY", [])]
    let port : String → Except Failure Asset := fun symbol =>
      match files.lookup symbol with
      | some quotes => .ok (.ofQuotes symbol quotes)
      | none => .error (.data (.unreadable "truncated"))
    let symbols := ["RISING", "EMPTY", "NEW", "BROKEN", "FALLING", "RISING"]
    let aboveAverage : Filter := .compare .gt (.field .close) (.sma 2 (.field .close))
    Labels port ∧
      load port ["EMPTY", "BROKEN"] = .error (.noQuotes "EMPTY,BROKEN") ∧
      ∃ u, load port symbols = .ok u ∧
        u.assets.map Asset.symbol = ["RISING", "NEW", "FALLING", "RISING"] ∧
        u.skipped = [("EMPTY", .noData), ("BROKEN", .loadFailed "data error: truncated")] ∧
        screen u.assets aboveAverage = ⟨["RISING", "RISING"], ["FALLING"], [("NEW", ⟨0, 0⟩)]⟩ ∧
        ∀ s, ∃ ledgers : List Ledger, backtestAll u.assets s = ledgers.map .ok ∧
          ledgers.map Ledger.symbol = ["RISING", "NEW", "FALLING", "RISING"] := by
  intro day files port symbols aboveAverage
  have labels : Labels port := by
    intro symbol a loaded
    dsimp only [port] at loaded
    split at loaded
    · rw [← Except.ok.inj loaded]
      rfl
    · cases loaded
  have none_yields : ∀ symbol ∈ ["EMPTY", "BROKEN"], ¬ Yields port symbol := by decide +kernel
  have yields : Yields port "RISING" := by decide +kernel
  have failed := ((load_loses_nothing labels ["EMPTY", "BROKEN"]).1 _).mpr ⟨rfl, none_yields⟩
  obtain ⟨u, loaded, divides, reported⟩ :=
    (load_loses_nothing labels symbols).2 ⟨"RISING", .head _, yields⟩
  have assets : u.assets.map Asset.symbol = ["RISING", "NEW", "FALLING", "RISING"] := by
    rw [divides.assets]
    decide +kernel
  have ledgers := reported.ledgers
  rw [assets] at ledgers
  have some_loaded :
      ¬ (collect (symbols.map fun symbol => (symbol, port symbol))).assets.isEmpty = true := by
    decide +kernel
  have collected := loaded
  rw [load, ofReplies, if_neg some_loaded] at collected
  obtain rfl := Except.ok.inj collected
  exact ⟨labels, failed, _, loaded, assets, by decide +kernel, by decide +kernel, ledgers⟩

end Universe

end TradingRules
