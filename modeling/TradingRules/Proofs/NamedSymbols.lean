import TradingRules.Proofs.CommandLines
import TradingRules.Proofs.SettingsText
import TradingRules.Proofs.Stages
import TradingRules.Proofs.SymbolLists

/-!
# Naming the symbols of a directory

A symbol that a directory has a file for can be taken from the list of the directory, or be named in
the settings or on the command line. Where it is named it is put in upper case, so a name reaches
the file if there is nothing to put in upper case: for symbols of capital letters, digits, points,
hyphens and low lines, every way leads to the same file and the same quotes.
-/

namespace TradingRules

namespace Symbols

open Text

/-- The characters of a symbol that is the same in upper case. -/
def capitals : List Char := "ABCDEFGHIJKLMNOPQRSTUVWXYZ0123456789.-_".toList

def smallLetters : List Char := "abcdefghijklmnopqrstuvwxyz".toList

/-- A symbol of letters, digits, points, hyphens and low lines. -/
def Plain (s : String) : Prop := ∀ c ∈ s.toList, c ∈ capitals ∨ c ∈ smallLetters

/-- A plain symbol without small letters. -/
def Capital (s : String) : Prop := ∀ c ∈ s.toList, c ∈ capitals

instance (s : String) : Decidable (Plain s) :=
  List.decidableBAll (fun c => c ∈ capitals ∨ c ∈ smallLetters) s.toList

instance (s : String) : Decidable (Capital s) := List.decidableBAll (· ∈ capitals) s.toList

theorem Capital.plain {s : String} (capital : Capital s) : Plain s :=
  fun c member => .inl (capital c member)

theorem upperChar_capital : ∀ c ∈ capitals, upperChar c = [c] := by
  have each : capitals.all (fun c => upperChar c = [c]) = true := by decide +kernel
  intro c member
  exact of_decide_eq_true (List.all_eq_true.mp each c member)

/-- No character of a plain symbol has a meaning in a list or in settings. -/
theorem unmarked : ∀ c ∈ capitals ++ smallLetters,
    isBlank c = false ∧ c ≠ ',' ∧ c ≠ '\n' ∧ Ini.startsComment c = false := by
  have each : (capitals ++ smallLetters).all (fun c =>
      isBlank c = false ∧ c ≠ ',' ∧ c ≠ '\n' ∧ Ini.startsComment c = false) = true := by
    decide +kernel
  intro c member
  exact of_decide_eq_true (List.all_eq_true.mp each c member)

section Plain

variable {s : String} {list : List String}

theorem Plain.unmarked (plain : Plain s) {c : Char} (member : c ∈ s.toList) :
    isBlank c = false ∧ c ≠ ',' ∧ c ≠ '\n' ∧ Ini.startsComment c = false :=
  Symbols.unmarked c (List.mem_append.mpr (plain c member))

theorem Plain.bare (plain : Plain s) : Bare s.toList := by
  constructor
  · intro c first
    exact (plain.unmarked (List.mem_of_mem_head? first)).1
  · intro c last
    exact (plain.unmarked (List.mem_of_getLast? last)).1

/-- A symbol without small letters stands for itself. -/
theorem normal_of_capital (capital : Capital s) : normal s.toList = s := by
  have upper_self : upper s.toList = s.toList := by
    rw [upper, List.flatMap_congr fun c member => upperChar_capital c (capital c member),
      List.flatMap_singleton']
  rw [normal, capital.plain.bare.trim_eq, upper_self, String.ofList_toList]

theorem not_blank_of_plain (plain : Plain s) (filled : s ≠ "") : ¬ Blank s.toList := by
  intro blank
  cases chars : s.toList with
  | nil => exact filled (String.toList_eq_nil_iff.mp chars)
  | cons c rest =>
    have member : c ∈ s.toList := by
      rw [chars]
      exact List.mem_cons_self
    have filled := (plain.unmarked member).1
    rw [blank c member] at filled
    cases filled

/-- Symbols without small letters are read as themselves from a list of them. -/
theorem parse_capitals (something : list ≠ []) (once : list.Nodup)
    (each : ∀ s ∈ list, Capital s ∧ s ≠ "") : parse (",".intercalate list) = .ok list := by
  have tokens_eq : tokens (",".intercalate list) = list.map String.toList := by
    apply tokens_intercalate something
    intro s member comma
    exact ((each s member).1.plain.unmarked comma).2.1 rfl
  have normals : (list.map String.toList).map normal = list := by
    rw [List.map_map]
    have itself : ∀ s ∈ list, (normal ∘ String.toList) s = s :=
      fun s member => normal_of_capital (each s member).1
    rw [List.map_congr_left itself, List.map_id']
  rw [parse_eq_ok_iff, tokens_eq, normals]
  refine ⟨usable_iff.mpr ⟨?_, ?_⟩, rfl⟩
  · intro token member
    obtain ⟨s, listed, rfl⟩ := List.mem_map.mp member
    exact not_blank_of_plain (each s listed).1.plain (each s listed).2
  · rwa [normals]

theorem mem_intercalate {pieces : List (List Char)} {c : Char}
    (member : c ∈ [','].intercalate pieces) : c = ',' ∨ ∃ piece ∈ pieces, c ∈ piece := by
  induction pieces with
  | nil => cases member
  | cons first rest ih =>
    cases rest with
    | nil =>
      rw [List.intercalate_singleton] at member
      exact .inr ⟨first, List.mem_cons_self, member⟩
    | cons second others =>
      rw [List.intercalate_cons_cons, List.mem_append, List.mem_append,
        List.mem_singleton] at member
      rcases member with (here | comma) | later
      · exact .inr ⟨first, List.mem_cons_self, here⟩
      · exact .inl comma
      · rcases ih later with comma | ⟨piece, listed, inside⟩
        · exact .inl comma
        · exact .inr ⟨piece, List.mem_cons_of_mem first listed, inside⟩

/-- Settings leave a list of plain symbols as it is. -/
theorem kept_intercalate (something : list ≠ []) (each : ∀ s ∈ list, Plain s ∧ s ≠ "") :
    Ini.Kept (",".intercalate list).toList := by
  have joined : (",".intercalate list).toList = [','].intercalate (list.map String.toList) :=
    String.toList_intercalate
  have unmarked : ∀ c ∈ (",".intercalate list).toList,
      isBlank c = false ∧ c ≠ '\n' ∧ Ini.startsComment c = false := by
    intro c member
    rw [joined] at member
    rcases mem_intercalate member with rfl | ⟨piece, listed, inside⟩
    · decide
    · obtain ⟨s, among, rfl⟩ := List.mem_map.mp listed
      obtain ⟨filled, -, marks⟩ := (each s among).1.unmarked inside
      exact ⟨filled, marks⟩
  constructor
  · intro empty
    have tokens_eq : tokens (",".intercalate list) = list.map String.toList := by
      apply tokens_intercalate something
      intro s member comma
      exact ((each s member).1.unmarked comma).2.1 rfl
    rw [tokens, empty] at tokens_eq
    obtain ⟨s, rest, rfl, none, -⟩ := List.map_eq_cons_iff.mp tokens_eq.symm
    exact (each s List.mem_cons_self).2 (String.toList_eq_nil_iff.mp none)
  · constructor
    · intro c first
      exact (unmarked c (List.mem_of_mem_head? first)).1
    · intro c last
      exact (unmarked c (List.mem_of_getLast? last)).1
  · intro c member
    exact (unmarked c member).2

end Plain

end Symbols

namespace Csv

variable {names : List String} {name s : String}

/-- A file is named for a symbol by the symbol and the extension. -/
theorem symbolOf?_eq_some_iff : symbolOf? name = some s ↔ name = s ++ extension := by
  have characters : extension.toList.length = extension.length := String.length_toList
  rw [symbolOf?]
  constructor
  · intro found
    split at found
    · rename_i ends
      obtain ⟨stem, whole⟩ := List.isSuffixOf_iff_suffix.mp ends
      obtain rfl := Option.some.inj found
      rw [← String.toList_inj, String.toList_append, String.toList_ofList, ← whole,
        List.length_append, characters, Nat.add_sub_cancel, List.take_left]
    · cases found
  · rintro rfl
    have ends : extension.toList.isSuffixOf (s ++ extension).toList = true := by
      rw [List.isSuffixOf_iff_suffix, String.toList_append]
      exact List.suffix_append _ _
    rw [if_pos ends, String.toList_append, List.length_append, characters, Nat.add_sub_cancel,
      List.take_left, String.ofList_toList]

theorem mem_symbolsOf_iff : s ∈ symbolsOf names ↔ s ++ extension ∈ names := by
  rw [symbolsOf, List.mem_mergeSort, List.mem_filterMap]
  simp only [symbolOf?_eq_some_iff, exists_eq_right]

/-- Different files are named for different symbols. -/
theorem nodup_symbolsOf (once : names.Nodup) : (symbolsOf names).Nodup := by
  rw [symbolsOf, (List.mergeSort_perm _ _).nodup_iff]
  apply List.Nodup.filterMap _ once
  intro name other symbol found same
  rw [symbolOf?_eq_some_iff.mp found, symbolOf?_eq_some_iff.mp same]

end Csv

/-! ## What commands do with symbols -/

namespace Settings

variable {ini relisted : Ini} {value : String}

/-- Settings that differ in the symbols only. -/
theorem required_relisted (same : Ini.Relisted ini relisted value) {group key : String}
    (other : ¬ (Text.lowercase group = "backtest" ∧ Text.lowercase key = "symbols")) :
    required relisted group key = required ini group key := by
  rw [required, required, same.rest group key other]

theorem dataDirectory_relisted (same : Ini.Relisted ini relisted value) :
    dataDirectory relisted = dataDirectory ini :=
  required_relisted same (by decide)

theorem strategyPath_relisted (same : Ini.Relisted ini relisted value) :
    strategyPath relisted = strategyPath ini :=
  required_relisted same (by decide)

theorem maxDepth_relisted (same : Ini.Relisted ini relisted value) :
    maxDepth relisted = maxDepth ini := by
  have depth (default : Int) : relisted.getIntD "backtest" "max_depth" default =
      ini.getIntD "backtest" "max_depth" default := by
    rw [Ini.getIntD, Ini.getIntD, same.rest "backtest" "max_depth" (by decide)]
  unfold maxDepth
  rw [depth]

theorem logLevel_relisted (same : Ini.Relisted ini relisted value) :
    logLevel relisted = logLevel ini := by
  simp only [logLevel, same.rest "logging" "level" (by decide)]

theorem symbols_relisted {list : List String}
    (same : Ini.Relisted ini relisted (",".intercalate list))
    (parsed : Symbols.parse (",".intercalate list) = .ok list) :
    symbols relisted = .ok (some list) := by
  rw [symbols, same.set]
  simp only [parsed]

theorem symbols_unset (unset : ini.get? "backtest" "symbols" = none) :
    symbols ini = .ok none := by
  rw [symbols, unset]

/-- Where both lists of symbols can be used, so can both settings or neither. -/
theorem checkData_relisted (same : Ini.Relisted ini relisted value)
    {list list' : Option (List String)}
    (parsed : symbols ini = .ok list) (parsed' : symbols relisted = .ok list') :
    checkData relisted = checkData ini := by
  simp only [checkData, dataDirectory_relisted same, logLevel_relisted same, parsed, parsed',
    ok_bind]

end Settings

namespace Command

/-- What loading some symbols of a directory gives. -/
def replies (disk : Disk Id) (directory : String) (symbols : List String) :
    List (String × Except DataFault Asset) :=
  symbols.map fun s => (s, (Csv.loadAsset disk directory s).run)

theorem loads_eq (disk : Disk Id) (directory : String) (symbols : List String) :
    (loads disk directory symbols).run = replies disk directory symbols := by
  induction symbols with
  | nil => rfl
  | cons s rest ih =>
    have later : rest.mapM (fun s => do return (s, ← Csv.loadAsset disk directory s)) =
        (pure (replies disk directory rest) : Id _) := ih
    rw [loads, List.mapM_cons, later]
    rfl

/-- The document of a command whose settings have been read, compiled. -/
def documentIn {α : Type} (disk : Disk Id) (check : Ini → Except SettingsFault Unit)
    (path : Ini → Except SettingsFault String) (compile : Nat → Json → Except Document.Fault α)
    (ini : Ini) : Except Failure α := do
  (check ini).mapError .settings
  let depth ← (Settings.maxDepth ini).mapError .settings
  let path ← (path ini).mapError .settings
  let v ← documentOf path (disk.read path).run
  (compile depth v).mapError .document

/-- The strategy of a backtest. -/
def strategyIn (disk : Disk Id) (config : String) (ini : Ini) : Except Failure Strategy :=
  documentIn disk Settings.checkBacktest
    (fun ini => return Path.besides config (← Settings.strategyPath ini)) Strategy.compile ini

/-- The filter of a screen. -/
def filterIn (disk : Disk Id) (path : String) (ini : Ini) : Except Failure Filter :=
  documentIn disk Settings.checkData (fun _ => .ok path) Filter.compile ini

/-- The method of a table. -/
def methodIn (disk : Disk Id) (path : String) (ini : Ini) : Except Failure Method :=
  documentIn disk Settings.checkData (fun _ => .ok path) Method.compile ini

/-- What a backtest does with the quotes of some symbols. -/
def backtestOn (disk : Disk Id) (config : String) (ini : Ini)
    (loaded : List (String × Except DataFault Asset)) : Outcome :=
  .ofResult (do
    let s ← strategyIn disk config ini
    let u ← (Universe.ofLoads loaded).mapError .data
    return "Strategy: " ++ s.name ++ "\n" ++ (backtestReports (backtestAll u.assets s)).written)

/-- What a screen does with the quotes of some symbols. -/
def screenOn (disk : Disk Id) (path : String) (ini : Ini)
    (loaded : List (String × Except DataFault Asset)) : Outcome :=
  .ofResult (do
    let f ← filterIn disk path ini
    let u ← (Universe.ofLoads loaded).mapError .data
    return (TradingRules.screen u.assets f).report)

/-- What a table does with the quotes of a symbol. -/
def tableOn (disk : Disk Id) (path : String) (ini : Ini) (loaded : Except DataFault Asset) :
    Outcome :=
  .ofResult (do
    let f ← methodIn disk path ini
    let a ← loaded.mapError .data
    return valueTable a ((List.range a.length).map fun i => (f.values a.history)[i]?))

section Runs

variable {disk : Disk Id} {config folder : String} {ini : Ini} {listed : Option (List String)}

theorem run_backtest (settings : settingsOf disk config = .ok ini)
    (located : Settings.dataDirectory ini = .ok folder) (parsed : Settings.symbols ini = .ok listed)
    {symbol : Option String} {symbols : List String}
    (chosen : symbolsIn disk (Path.besides config folder)
      ((symbol.map fun s => [symbolNamed s]).or listed) = .ok symbols) :
    (Command.backtest config symbol).run disk =
      backtestOn disk config ini (replies disk (Path.besides config folder) symbols) := by
  rw [run_eq]
  simp only [staged, plan, settings, located, parsed, chosen, loads_eq, strategyIn, documentIn,
    Plan.run, Plan.document, assetsIn, backtestOn, mapError_ok, mapError_bind, ok_bind, bind_assoc,
    pure_eq_ok]

theorem run_screen (settings : settingsOf disk config = .ok ini)
    (located : Settings.dataDirectory ini = .ok folder) (parsed : Settings.symbols ini = .ok listed)
    {symbols : List String}
    (chosen : symbolsIn disk (Path.besides config folder) listed = .ok symbols) (filter : String) :
    (Command.screen config filter).run disk =
      screenOn disk filter ini (replies disk (Path.besides config folder) symbols) := by
  rw [run_eq]
  simp only [staged, plan, settings, located, parsed, chosen, loads_eq, filterIn, documentIn,
    Plan.run, Plan.document, assetsIn, screenOn, mapError_ok, mapError_bind, ok_bind, bind_assoc,
    pure_eq_ok]

theorem run_tabulate (settings : settingsOf disk config = .ok ini)
    (located : Settings.dataDirectory ini = .ok folder) (symbol method : String) :
    (Command.tabulate config symbol method).run disk =
      tableOn disk method ini (Csv.loadAsset disk (Path.besides config folder)
        (symbolNamed symbol)).run := by
  rw [run_eq]
  simp only [staged, plan, settings, located, methodIn, documentIn, Plan.run, Plan.document,
    tableOn, mapError_ok, mapError_bind, ok_bind, bind_assoc, pure_eq_ok]

end Runs

/-- A settings file beside another, the same but for the symbols, which are the given ones. -/
structure Relists (disk : Disk Id) (config config' : String) (ini : Ini) (list : List String) :
    Prop where
  beside : Path.parent? config' = Path.parent? config
  settings : ∃ relisted, settingsOf disk config' = .ok relisted ∧
    Ini.Relisted ini relisted (",".intercalate list)

section Relisted

variable {disk : Disk Id} {config config' folder : String} {ini relisted : Ini} {value : String}
  {list : List String} {listed listed' : Option (List String)}

theorem besides_congr (beside : Path.parent? config' = Path.parent? config) (path : String) :
    Path.besides config' path = Path.besides config path := by
  rw [Path.besides, Path.besides, beside]

theorem backtestOn_relisted (beside : Path.parent? config' = Path.parent? config)
    (same : Ini.Relisted ini relisted value) (parsed : Settings.symbols ini = .ok listed)
    (parsed' : Settings.symbols relisted = .ok listed')
    (loaded : List (String × Except DataFault Asset)) :
    backtestOn disk config' relisted loaded = backtestOn disk config ini loaded := by
  have check : Settings.checkBacktest relisted = Settings.checkBacktest ini := by
    rw [Settings.checkBacktest, Settings.checkBacktest,
      Settings.checkData_relisted same parsed parsed', Settings.strategyPath_relisted same,
      Settings.maxDepth_relisted same]
  simp only [backtestOn, strategyIn, documentIn, check, Settings.maxDepth_relisted same,
    Settings.strategyPath_relisted same, besides_congr beside]

theorem screenOn_relisted (same : Ini.Relisted ini relisted value)
    (parsed : Settings.symbols ini = .ok listed) (parsed' : Settings.symbols relisted = .ok listed')
    (path : String) (loaded : List (String × Except DataFault Asset)) :
    screenOn disk path relisted loaded = screenOn disk path ini loaded := by
  simp only [screenOn, filterIn, documentIn, Settings.checkData_relisted same parsed parsed',
    Settings.maxDepth_relisted same]

/-- Symbols without small letters that are listed in the settings are the ones that are used. -/
theorem run_relisted (located : Settings.dataDirectory ini = .ok folder)
    (parsed : Settings.symbols ini = .ok listed)
    (something : list ≠ []) (once : list.Nodup) (each : ∀ s ∈ list, Symbols.Capital s ∧ s ≠ "")
    (relists : Relists disk config config' ini list) :
    (Command.backtest config' none).run disk =
        backtestOn disk config ini (replies disk (Path.besides config folder) list) ∧
      ∀ filter, (Command.screen config' filter).run disk =
        screenOn disk filter ini (replies disk (Path.besides config folder) list) := by
  obtain ⟨beside, relisted, settings', same⟩ := relists
  have parsed' : Settings.symbols relisted = .ok (some list) :=
    Settings.symbols_relisted same (Symbols.parse_capitals something once each)
  have located' : Settings.dataDirectory relisted = .ok folder := by
    rw [Settings.dataDirectory_relisted same, located]
  constructor
  · rw [run_backtest settings' located' parsed' rfl,
      backtestOn_relisted beside same parsed parsed', besides_congr beside]
  · intro filter
    rw [run_screen settings' located' parsed' rfl, screenOn_relisted same parsed parsed',
      besides_congr beside]

/-- Settings are there if their text can be read and says something usable about the log. -/
theorem settingsOf_eq_ok_iff {text : String} (read : disk.read config = .ok text) :
    settingsOf disk config = .ok ini ↔
      Ini.parse text = .ok ini ∧ ∃ level, Settings.logLevel ini = .ok level := by
  have found : iniOf config (disk.read config).run = .ok ini ↔ Ini.parse text = .ok ini := by
    rw [read]
    change iniOf config (.ok text) = _ ↔ _
    rw [iniOf]
    cases Ini.parse text <;> simp
  simp only [settingsOf, bind_eq_ok_iff, pure_eq_ok, Except.ok.injEq]
  constructor
  · rintro ⟨ini, parsed, level, levelled, rfl⟩
    exact ⟨found.mp parsed, level, levelled⟩
  · rintro ⟨parsed, level, levelled⟩
    exact ⟨ini, found.mpr parsed, level, levelled, rfl⟩

/-- Adding a list of plain symbols to the text of some settings sets the symbols to that list. -/
theorem relists_withSymbols {text : String} (settings : settingsOf disk config = .ok ini)
    (read : disk.read config = .ok text)
    (read' : disk.read config' = .ok (Ini.withSymbols text (",".intercalate list)))
    (beside : Path.parent? config' = Path.parent? config) (something : list ≠ [])
    (each : ∀ s ∈ list, Symbols.Plain s ∧ s ≠ "") : Relists disk config config' ini list := by
  have same := Ini.relisted_concat ini (",".intercalate list)
  obtain ⟨parsed, level, levelled⟩ := (settingsOf_eq_ok_iff read).mp settings
  have parsed' := Ini.parse_withSymbols parsed (Symbols.kept_intercalate something each)
  rw [String.ofList_toList] at parsed'
  rw [← Settings.logLevel_relisted same] at levelled
  exact ⟨beside, _, (settingsOf_eq_ok_iff read').mpr ⟨parsed', level, levelled⟩, same⟩

end Relisted

/-- What a symbol of a directory leads to, whichever way it is named: the quotes in the file that
was found for it. -/
structure Nameable (disk : Disk Id) (config directory : String) (ini : Ini) (names : List String)
    (s : String) : Prop where
  file : ∃ name ∈ names, Csv.symbolOf? name = some s ∧ (Csv.loadAsset disk directory s).run =
    Csv.assetOf (Path.join directory name) s (disk.read (Path.join directory name)).run
  backtest : (Command.backtest config (some s)).run disk =
    backtestOn disk config ini (replies disk directory [s])
  table : ∀ method, (Command.tabulate config s method).run disk =
    tableOn disk method ini (Csv.loadAsset disk directory s).run
  setting : s ≠ "" → ∀ config', Relists disk config config' ini [s] →
    (Command.backtest config' none).run disk =
        backtestOn disk config ini (replies disk directory [s]) ∧
      ∀ filter, (Command.screen config' filter).run disk =
        screenOn disk filter ini (replies disk directory [s])

/-- A backtest and a screen of the symbols that a directory lists, and of the same symbols by
name. -/
structure Listed (disk : Disk Id) (config directory : String) (ini : Ini) (names : List String) :
    Prop where
  list : (Csv.listSymbols disk directory).run = .ok (Csv.symbolsOf names)
  backtest : (Command.backtest config none).run disk =
    backtestOn disk config ini (replies disk directory (Csv.symbolsOf names))
  screen : ∀ filter, (Command.screen config filter).run disk =
    screenOn disk filter ini (replies disk directory (Csv.symbolsOf names))
  nameable : ∀ s ∈ Csv.symbolsOf names, Symbols.Capital s →
    Nameable disk config directory ini names s
  all_named : names.Nodup → Csv.symbolsOf names ≠ [] →
    (∀ s ∈ Csv.symbolsOf names, Symbols.Capital s ∧ s ≠ "") →
    ∀ config', Relists disk config config' ini (Csv.symbolsOf names) →
      (Command.backtest config' none).run disk = (Command.backtest config none).run disk ∧
        ∀ filter, (Command.screen config' filter).run disk = (Command.screen config filter).run disk

section Named

variable {disk : Disk Id} {config folder : String} {ini : Ini} {names : List String}

theorem nameable {s : String} (settings : settingsOf disk config = .ok ini)
    (unset : ini.get? "backtest" "symbols" = none)
    (located : Settings.dataDirectory ini = .ok folder) (available : s ∈ Csv.symbolsOf names)
    (capital : Symbols.Capital s) :
    Nameable disk config (Path.besides config folder) ini names s := by
  have itself : symbolNamed s = s := Symbols.normal_of_capital capital
  have parsed : Settings.symbols ini = .ok none := Settings.symbols_unset unset
  constructor
  · exact ⟨s ++ Csv.extension, Csv.mem_symbolsOf_iff.mp available,
      Csv.symbolOf?_eq_some_iff.mpr rfl, rfl⟩
  · apply run_backtest settings located parsed
    rw [Option.map_some, itself]
    rfl
  · intro method
    rw [run_tabulate settings located, itself]
  · intro filled config' relists
    apply run_relisted located parsed (List.cons_ne_nil s []) (List.nodup_singleton s) _ relists
    intro other member
    obtain rfl := List.mem_singleton.mp member
    exact ⟨capital, filled⟩

/-- Every available symbol without small letters can be named: in a command with settings that list
no symbols, in the same settings with the symbol in them, and among all symbols that are
available. The names are written into the settings or given to a command as they are. -/
theorem available_symbols_named (settings : settingsOf disk config = .ok ini)
    (unset : ini.get? "backtest" "symbols" = none)
    (located : Settings.dataDirectory ini = .ok folder)
    (available : disk.list (Path.besides config folder) = .ok names) :
    Listed disk config (Path.besides config folder) ini names ∧
      (∀ list, list ≠ [] → (∀ s ∈ list, Symbols.Plain s ∧ s ≠ "") → ∀ text config',
        disk.read config = .ok text →
        disk.read config' = .ok (Ini.withSymbols text (",".intercalate list)) →
        Path.parent? config' = Path.parent? config → Relists disk config config' ini list) ∧
      ∀ s method, config ≠ "" → method ≠ "" → Arguments.SymbolGiven config method s := by
  have parsed : Settings.symbols ini = .ok none := Settings.symbols_unset unset
  have found : (Csv.listSymbols disk (Path.besides config folder)).run =
      .ok (Csv.symbolsOf names) := by
    rw [Csv.listSymbols, available]
    rfl
  have backtest : (Command.backtest config none).run disk = backtestOn disk config ini
      (replies disk (Path.besides config folder) (Csv.symbolsOf names)) :=
    run_backtest settings located parsed found
  have screen : ∀ filter, (Command.screen config filter).run disk = screenOn disk filter ini
      (replies disk (Path.besides config folder) (Csv.symbolsOf names)) :=
    run_screen settings located parsed found
  refine ⟨⟨found, backtest, screen, ?_, ?_⟩, ?_, ?_⟩
  · intro s member capital
    exact nameable settings unset located member capital
  · intro once something each config' relists
    obtain ⟨backtest', screen'⟩ :=
      run_relisted located parsed something (Csv.nodup_symbolsOf once) each relists
    constructor
    · rw [backtest', backtest]
    · intro filter
      rw [screen', screen]
  · intro list something each text config' read read' beside
    exact relists_withSymbols settings read read' beside something each
  · intro s method given described
    exact Arguments.symbolGiven given described

/-- Among the files is one that is not for quotes. -/
theorem available_symbols_named_beside_notes :
    let text := "[data]\ndir=d\n"
    let csv := "timestamp,open,high,low,close,volume\n2024-01-02 00:00:00,1,1,1,1,1\n"
    let names := ["BRK-B.csv", "GM.csv", "notes.txt"]
    let file (path : String) : Except DiskFault String :=
      if path = "c.ini" then .ok text else
      if path = "n.ini" then .ok (Ini.withSymbols text "BRK-B,GM") else
      if path = "f.json" then .ok "\x7b\"type\":\"true\"\x7d" else
      if path = "d/GM.csv" ∨ path = "d/BRK-B.csv" then .ok csv else .error .notFound
    let disk : Disk Id := ⟨file, fun _ => .ok names⟩
    let ini : Ini := [⟨"data", "dir", some "d"⟩]
    settingsOf disk "c.ini" = .ok ini ∧ ini.get? "backtest" "symbols" = none ∧
      Settings.dataDirectory ini = .ok "d" ∧
      disk.list (Path.besides "c.ini" "d") = .ok names ∧
      Csv.symbolsOf names = ["BRK-B", "GM"] ∧
      Listed disk "c.ini" "d" ini names ∧
      (Command.screen "n.ini" "f.json").run disk = (Command.screen "c.ini" "f.json").run disk ∧
      ((Command.screen "n.ini" "f.json").run disk).written = "BRK-B\nGM\n" := by
  intro text csv names file disk ini
  have parsed : Ini.parse "[data]\ndir=d\n" = .ok [⟨"data", "dir", some "d"⟩] := by rfl
  have settings : settingsOf disk "c.ini" = .ok ini :=
    (settingsOf_eq_ok_iff rfl).mpr ⟨parsed, "info", by rfl⟩
  have unset : ini.get? "backtest" "symbols" = none := by decide
  have located : Settings.dataDirectory ini = .ok "d" := by rfl
  have symbols : Csv.symbolsOf names = ["BRK-B", "GM"] :=
    List.mergeSort_of_pairwise (by decide)
  have written : ((Command.screen "n.ini" "f.json").run disk).written = "BRK-B\nGM\n" := by
    decide +kernel
  obtain ⟨all, lists, -⟩ := available_symbols_named settings unset located rfl
  have capital : ∀ s ∈ Csv.symbolsOf names, Symbols.Capital s ∧ s ≠ "" := by
    rw [symbols]
    decide +kernel
  have relists : Relists disk "c.ini" "n.ini" ini (Csv.symbolsOf names) := by
    apply lists
    · rw [symbols]
      decide
    · exact fun s member => ⟨(capital s member).1.plain, (capital s member).2⟩
    · rfl
    · rw [symbols]
      rfl
    · rfl
  have some_symbol : Csv.symbolsOf names ≠ [] := by
    rw [symbols]
    decide
  have same := (all.all_named (by decide) some_symbol capital "n.ini" relists).2 "f.json"
  exact ⟨settings, unset, located, rfl, symbols, all, same, written⟩

/-- A symbol with small letters is among those that a directory lists, and cannot be named: in upper
case it is another symbol. A symbol without characters cannot be in a list, and one that begins with
a hyphen cannot be an argument of its own. -/
theorem available_symbol_unnamed :
    let text := "[data]\ndir=d\n"
    let csv := "timestamp,open,high,low,close,volume\n2024-01-02 00:00:00,1,1,1,1,1\n"
    let file (path : String) : Except DiskFault String :=
      if path = "c.ini" then .ok text else
      if path = "n.ini" then .ok (Ini.withSymbols text "bhp") else
      if path = "e.ini" then .ok (Ini.withSymbols text "") else
      if path = "f.json" then .ok "\x7b\"type\":\"true\"\x7d" else
      if path = "d/bhp.csv" then .ok csv else .error .notFound
    let disk : Disk Id := ⟨file, fun _ => .ok ["bhp.csv"]⟩
    (Csv.listSymbols disk "d").run = .ok ["bhp"] ∧ Symbols.Plain "bhp" ∧
      (Command.screen "c.ini" "f.json").run disk = .wrote "bhp\n" ∧
      ((Command.screen "n.ini" "f.json").run disk).failure = some (.data (.noQuotes "BHP")) ∧
      Csv.symbolsOf [".csv"] = [""] ∧
      ((Command.screen "e.ini" "f.json").run disk).failure = some (.settings
        (.invalid "backtest" "symbols" "empty token in symbol list")) ∧
      Csv.symbolsOf ["-A.csv"] = ["-A"] ∧
      Arguments.parse ["backtest", Arguments.Flag.config.given "c.ini", "--symbol", "-A"] =
        .error .unknownArgument := by
  intro text csv file disk
  have symbols : Csv.symbolsOf ["bhp.csv"] = ["bhp"] := List.mergeSort_singleton "bhp"
  have listed : (Csv.listSymbols disk "d").run = .ok ["bhp"] := by
    rw [← symbols]
    rfl
  have plain : Symbols.Plain "bhp" := by decide +kernel
  have parsed : Ini.parse "[data]\ndir=d\n" = .ok [⟨"data", "dir", some "d"⟩] := by rfl
  have settings : settingsOf disk "c.ini" = .ok [⟨"data", "dir", some "d"⟩] :=
    (settingsOf_eq_ok_iff rfl).mpr ⟨parsed, "info", by rfl⟩
  have unlisted : Settings.symbols [⟨"data", "dir", some "d"⟩] = .ok none :=
    Settings.symbols_unset (by decide)
  have written : screenOn disk "f.json" [⟨"data", "dir", some "d"⟩] (replies disk "d" ["bhp"]) =
      .wrote "bhp\n" := by
    decide +kernel
  refine ⟨listed, plain, ?_, ?_, List.mergeSort_singleton "", ?_, List.mergeSort_singleton "-A", ?_⟩
  · rw [← written]
    exact run_screen settings rfl unlisted listed "f.json"
  · decide +kernel
  · decide +kernel
  · rfl

end Named

end Command

end TradingRules
