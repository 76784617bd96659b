import TradingRules.Command.Run
import TradingRules.Proofs.Store

/-!
# Stages of commands

A command reads its settings, its document and its quotes, one after another, and writes once all of
them are there. What a stage does depends on the files of that stage and of those before it, so a
failure of the settings does not change with the document or the quotes, and one of the document
does not change with the quotes.
-/

namespace TradingRules

/-- What is written, or the failure in its place. -/
def Outcome.ofResult : Except Failure String → Outcome
  | .ok text => .wrote text
  | .error f => .failed f

theorem Outcome.after_eq_wrote {o : Outcome} (whole : o.failure = none) (text : String) :
    o.after text = .wrote (text ++ o.written) := by
  rw [Outcome.after, whole]
  rfl

namespace Command

/-- What is left to do once the settings have been read. -/
structure Plan where
  /-- The file that holds the document. -/
  path : String
  /-- The report that a document asks for, given the disk with the quotes. -/
  compile : Json → Except Document.Fault (Disk Id → Except DataFault String)

def settingsOf (disk : Disk Id) (config : String) : Except SettingsFault Ini := do
  let ini ← iniOf config (disk.read config).run
  let _ ← Settings.logLevel ini
  return ini

/-- The symbols that are listed, or all that there are. -/
def symbolsIn (disk : Disk Id) (directory : String) (listed : Option (List String)) :
    Except DataFault (List String) :=
  listed.elim (Csv.listSymbols disk directory).run .ok

/-- The assets of the symbols that are listed, or of all that there are. -/
def assetsIn (disk : Disk Id) (directory : String) (listed : Option (List String)) :
    Except DataFault (List Asset) := do
  let symbols ← symbolsIn disk directory listed
  let u ← Universe.ofLoads (loads disk directory symbols).run
  return u.assets

/-- The first stage: what the settings say is to be done. -/
def plan (disk : Disk Id) : Command → Except SettingsFault Plan
  | .backtest config symbol => do
    let ini ← settingsOf disk config
    Settings.checkBacktest ini
    let depth ← Settings.maxDepth ini
    let path ← Settings.strategyPath ini
    let directory ← Settings.dataDirectory ini
    let listed ← Settings.symbols ini
    return ⟨Path.besides config path, fun v => do
      let s ← Strategy.compile depth v
      return fun disk => do
        let assets ← assetsIn disk (Path.besides config directory)
          ((symbol.map fun s => [symbolNamed s]).or listed)
        return "Strategy: " ++ s.name ++ "\n" ++ (backtestReports (backtestAll assets s)).written⟩
  | .screen config filter => do
    let ini ← settingsOf disk config
    Settings.checkData ini
    let depth ← Settings.maxDepth ini
    let directory ← Settings.dataDirectory ini
    let listed ← Settings.symbols ini
    return ⟨filter, fun v => do
      let f ← Filter.compile depth v
      return fun disk => do
        let assets ← assetsIn disk (Path.besides config directory) listed
        return (TradingRules.screen assets f).report⟩
  | .validate strategy => .ok ⟨strategy, fun v => do
      let s ← Strategy.compile defaultMaxDepth v
      return fun _ => .ok s.summary⟩
  | .tabulate config symbol method => do
    let ini ← settingsOf disk config
    Settings.checkData ini
    let depth ← Settings.maxDepth ini
    let directory ← Settings.dataDirectory ini
    return ⟨method, fun v => do
      let f ← Method.compile depth v
      return fun disk => do
        let a ← (Csv.loadAsset disk (Path.besides config directory) (symbolNamed symbol)).run
        return valueTable a ((List.range a.length).map fun i => (f.values a.history)[i]?)⟩

/-- The second stage: the document compiled. -/
def Plan.document (p : Plan) (disk : Disk Id) :
    Except Failure (Disk Id → Except DataFault String) := do
  let v ← documentOf p.path (disk.read p.path).run
  (p.compile v).mapError .document

/-- What comes after the settings: the document, and then the report on the quotes. -/
def Plan.run (p : Plan) (disk : Disk Id) : Except Failure String := do
  let report ← p.document disk
  (report disk).mapError .data

/-- All stages one after another. -/
def staged (disk : Disk Id) (c : Command) : Except Failure String := do
  let p ← (c.plan disk).mapError .settings
  p.run disk

/-! ## A run goes through the stages -/

section Running

variable {α β : Type}

/-- What a stage on a disk that is a value comes to. -/
def Stage.result (x : Stage Id α) : Except Failure α := x.run.run

theorem result_bind (x : Stage Id α) (f : α → Stage Id β) :
    (x >>= f).result = x.result >>= fun a => (f a).result := by
  change Id.run (ExceptT.bindCont f x.result) = _
  cases x.result <;> rfl

theorem result_stage (x : Except Failure α) : (stage x : Stage Id α).result = x := rfl

theorem result_checked (x : Except SettingsFault α) :
    (checked x : Stage Id α).result = x.mapError .settings := rfl

theorem result_ask (x : Id α) : (ask x : Stage Id α).result = .ok x.run := rfl

theorem result_pure (x : α) : (pure x : Stage Id α).result = .ok x := rfl

end Running

theorem result_readSettings (disk : Disk Id) (config : String) :
    (readSettings disk config).result = (settingsOf disk config).mapError .settings := by
  simp only [readSettings, settingsOf, result_bind, result_ask, result_checked, result_pure,
    mapError_bind, ok_bind, pure_eq_ok, mapError_ok]

theorem result_readDocument {α : Type} (disk : Disk Id) (compile : Json → Except Document.Fault α)
    (path : String) : (readDocument disk compile path).result = (do
      let v ← documentOf path (disk.read path).run
      (compile v).mapError .document) := by
  simp only [readDocument, result_bind, result_ask, result_stage, ok_bind]

theorem result_universeOf (disk : Disk Id) (directory : String) (symbols : List String) :
    (universeOf disk directory symbols).result =
      (Universe.ofLoads (loads disk directory symbols).run).mapError .data := by
  simp only [universeOf, result_bind, result_ask, result_stage, ok_bind]

theorem result_symbolsOf {directory : String} {ini : Ini} {listed : Option (List String)}
    (known : Settings.symbols ini = .ok listed) (disk : Disk Id) :
    (symbolsOf disk directory ini).result = (symbolsIn disk directory listed).mapError .data := by
  simp only [symbolsOf, result_bind, result_checked, known, mapError_ok, ok_bind]
  cases listed with
  | some list => rfl
  | none => rfl

theorem result_dataPath {config directory : String} {ini : Ini}
    (known : Settings.dataDirectory ini = .ok directory) :
    (dataPath config ini : Stage Id String).result = .ok (Path.besides config directory) := by
  simp only [dataPath, result_bind, result_checked, result_pure, known, mapError_ok, ok_bind]

/-- Settings that have been checked name a directory and have a usable list of symbols. -/
theorem checkData_eq_ok {ini : Ini} (checks : Settings.checkData ini = .ok ()) :
    ∃ directory listed, Settings.dataDirectory ini = .ok directory ∧
      Settings.symbols ini = .ok listed := by
  simp only [Settings.checkData, bind_eq_ok_iff] at checks
  obtain ⟨directory, named, listed, parsed, -⟩ := checks
  exact ⟨directory, listed, named, parsed⟩

theorem checkBacktest_eq_ok {ini : Ini} (checks : Settings.checkBacktest ini = .ok ()) :
    Settings.checkData ini = .ok () := by
  simp only [Settings.checkBacktest, bind_eq_ok_iff] at checks
  obtain ⟨⟨⟩, data, -⟩ := checks
  exact data

/-- The settings are read and checked, with the depth last, before anything else is done. -/
theorem result_prepared {disk : Disk Id} {config : String}
    {check : Ini → Except SettingsFault Unit} {body : Ini → Nat → Stage Id Outcome}
    {rest : Ini → Nat → Except SettingsFault Plan}
    (each : ∀ ini depth, check ini = .ok () → (body ini depth).result =
      .wrote <$> ((rest ini depth).mapError .settings >>= fun p => p.run disk)) :
    Stage.result (do
      let ini ← readSettings disk config
      checked (check ini)
      let depth ← checked (Settings.maxDepth ini)
      body ini depth) =
    .wrote <$> (Except.mapError .settings (do
      let ini ← settingsOf disk config
      check ini
      let depth ← Settings.maxDepth ini
      rest ini depth) >>= fun p => p.run disk) := by
  simp only [result_bind, result_readSettings, result_checked]
  cases settingsOf disk config with
  | error fault => rfl
  | ok ini =>
    simp only [mapError_ok, ok_bind]
    cases checks : check ini with
    | error fault => rfl
    | ok whole =>
      cases Settings.maxDepth ini with
      | error fault => rfl
      | ok depth => exact each ini depth checks

/-- No backtest of an asset fails. -/
theorem backtestReports_failure (assets : List Asset) (s : Strategy) :
    (backtestReports (backtestAll assets s)).failure = none := by
  induction assets with
  | nil => rfl
  | cons a rest ih =>
    have first : backtestAll (a :: rest) s =
        .ok (.ofJournal a (s.replay a.tape a.bars none)) :: backtestAll rest s := by
      rw [backtestAll, List.map_cons, Asset.backtest_eq]
      rfl
    rw [first]
    exact ih

theorem result_backtestStage (disk : Disk Id) (config : String) (symbol : Option String) :
    (backtestStage disk config symbol).result =
      .wrote <$> staged disk (.backtest config symbol) := by
  refine result_prepared fun ini depth checks => ?_
  obtain ⟨directory, listed, named, parsed⟩ := checkData_eq_ok (checkBacktest_eq_ok checks)
  simp only [result_bind, result_checked, result_readDocument, result_dataPath named, Plan.run,
    Plan.document, named, parsed]
  cases Settings.strategyPath ini with
  | error fault => rfl
  | ok path =>
    simp only [mapError_ok, ok_bind, pure_eq_ok, mapError_bind, bind_assoc, assetsIn, map_bind,
      map_ok]
    -- Where a symbol is named, the settings are not asked for a list.
    cases symbol with
    | some s =>
      simp only [result_bind, result_pure, result_universeOf, Option.map_some, Option.some_or,
        symbolsIn, Option.elim_some, mapError_ok, ok_bind,
        Outcome.after_eq_wrote (backtestReports_failure _ _)]
    | none =>
      simp only [result_bind, result_pure, result_universeOf, result_symbolsOf parsed,
        Option.map_none, Option.none_or, Outcome.after_eq_wrote (backtestReports_failure _ _)]

theorem result_screenStage (disk : Disk Id) (config filter : String) :
    (screenStage disk config filter).result = .wrote <$> staged disk (.screen config filter) := by
  refine result_prepared fun ini depth checks => ?_
  obtain ⟨directory, listed, named, parsed⟩ := checkData_eq_ok checks
  simp only [result_bind, result_readDocument, result_dataPath named, result_symbolsOf parsed,
    result_universeOf, result_pure, named, parsed, Plan.run, Plan.document, assetsIn, mapError_ok,
    mapError_bind, ok_bind, bind_assoc, map_bind, map_ok, pure_eq_ok]

theorem result_validateStage (disk : Disk Id) (strategy : String) :
    (validateStage disk strategy).result = .wrote <$> staged disk (.validate strategy) := by
  simp only [validateStage, staged, plan, result_bind, result_readDocument, result_pure, Plan.run,
    Plan.document, mapError_ok, mapError_bind, ok_bind, bind_assoc, map_bind, map_ok, pure_eq_ok]

theorem result_tabulateStage (disk : Disk Id) (config symbol method : String) :
    (tabulateStage disk config symbol method).result =
      .wrote <$> staged disk (.tabulate config symbol method) := by
  refine result_prepared fun ini depth checks => ?_
  obtain ⟨directory, listed, named, -⟩ := checkData_eq_ok checks
  simp only [result_bind, result_readDocument, result_dataPath named, result_ask, result_stage,
    result_pure, named, Method.perIndexValues_eq, Plan.run, Plan.document, mapError_ok,
    mapError_bind, ok_bind, bind_assoc, map_bind, map_ok, pure_eq_ok]

theorem finish_eq {x : Stage Id Outcome} {r : Except Failure String}
    (same : x.result = .wrote <$> r) : finish x = .ofResult r := by
  have ran : x.run = pure (.wrote <$> r) := same
  rw [finish, ran]
  cases r <;> rfl

/-- A run is its stages one after another. -/
theorem run_eq (disk : Disk Id) (c : Command) : c.run disk = .ofResult (c.staged disk) := by
  cases c with
  | backtest config symbol => exact finish_eq (result_backtestStage disk config symbol)
  | screen config filter => exact finish_eq (result_screenStage disk config filter)
  | validate strategy => exact finish_eq (result_validateStage disk strategy)
  | tabulate config symbol method =>
    exact finish_eq (result_tabulateStage disk config symbol method)

/-! ## What a failure depends on -/

/-- The file with the settings, where a command has some. -/
def settingsPath? : Command → Option String
  | .backtest config _ => some config
  | .screen config _ => some config
  | .validate _ => none
  | .tabulate config _ _ => some config

/-- The file with the document. A backtest has its name from the settings. -/
def documentPath? (disk : Disk Id) : Command → Option String
  | .backtest config _ =>
    ((settingsOf disk config >>= Settings.strategyPath).toOption).map (Path.besides config)
  | .screen _ filter => some filter
  | .validate strategy => some strategy
  | .tabulate _ _ method => some method

def SameSettings (c : Command) (disk disk' : Disk Id) : Prop :=
  ∀ path, c.settingsPath? = some path → disk'.read path = disk.read path

def SameDocument (c : Command) (disk disk' : Disk Id) : Prop :=
  ∀ path, c.documentPath? disk = some path → disk'.read path = disk.read path

section Failures

variable {c : Command} {disk disk' : Disk Id} {f : Failure}

theorem plan_congr (same : c.SameSettings disk disk') : c.plan disk' = c.plan disk := by
  cases c with
  | validate strategy => rfl
  | backtest config symbol => simp only [plan, settingsOf, same config rfl]
  | screen config filter => simp only [plan, settingsOf, same config rfl]
  | tabulate config symbol method => simp only [plan, settingsOf, same config rfl]

theorem documentPath?_of_plan {p : Plan} (planned : c.plan disk = .ok p) :
    c.documentPath? disk = some p.path := by
  cases c with
  | validate strategy =>
    cases planned
    rfl
  | backtest config symbol =>
    simp only [plan, bind_eq_ok_iff, pure_eq_ok, Except.ok.injEq] at planned
    obtain ⟨ini, read, -, -, depth, -, path, named, directory, -, listed, -, rfl⟩ := planned
    simp only [documentPath?, read, ok_bind, named, toOption_ok, Option.map_some]
  | screen config filter =>
    simp only [plan, bind_eq_ok_iff, pure_eq_ok, Except.ok.injEq] at planned
    obtain ⟨ini, -, -, -, depth, -, directory, -, listed, -, rfl⟩ := planned
    rfl
  | tabulate config symbol method =>
    simp only [plan, bind_eq_ok_iff, pure_eq_ok, Except.ok.injEq] at planned
    obtain ⟨ini, -, -, -, depth, -, directory, -, rfl⟩ := planned
    rfl

theorem documentOf_exitCode {path : String} {read : Except DiskFault String}
    (failed : documentOf path read = .error f) : f.exitCode = 1 ∨ f.exitCode = 4 := by
  cases read with
  | error fault =>
    cases failed
    exact .inl rfl
  | ok text =>
    obtain ⟨fault, -, rfl⟩ := mapError_eq_error_iff.mp failed
    exact .inr rfl

theorem Plan.document_exitCode {p : Plan} (failed : p.document disk = .error f) :
    f.exitCode = 1 ∨ f.exitCode = 4 := by
  rw [Plan.document, bind_eq_error_iff] at failed
  rcases failed with unread | ⟨v, -, uncompiled⟩
  · exact documentOf_exitCode unread
  · obtain ⟨fault, -, rfl⟩ := mapError_eq_error_iff.mp uncompiled
    exact .inr rfl

theorem staged_of_run_failure (failed : (c.run disk).failure = some f) :
    c.staged disk = .error f := by
  rw [run_eq] at failed
  cases result : c.staged disk with
  | ok text =>
    rw [result] at failed
    cases failed
  | error other =>
    rw [result] at failed
    cases failed
    rfl

/-- A failure comes from the first stage that fails. -/
theorem staged_eq_error (failed : c.staged disk = .error f) :
    (∃ fault, f = .settings fault ∧ c.plan disk = .error fault) ∨
      (∃ p, c.plan disk = .ok p ∧ p.document disk = .error f) ∨ ∃ fault, f = .data fault := by
  rw [staged, bind_eq_error_iff] at failed
  rcases failed with refused | ⟨p, planned, stopped⟩
  · obtain ⟨fault, unplanned, rfl⟩ := mapError_eq_error_iff.mp refused
    exact .inl ⟨fault, rfl, unplanned⟩
  · rw [mapError_eq_ok_iff] at planned
    rcases bind_eq_error_iff.mp stopped with undocumented | ⟨report, -, unreported⟩
    · exact .inr (.inl ⟨p, planned, undocumented⟩)
    · obtain ⟨fault, -, rfl⟩ := mapError_eq_error_iff.mp unreported
      exact .inr (.inr ⟨fault, rfl⟩)

theorem run_congr_of_settings {fault : SettingsFault} (failed : c.plan disk = .error fault)
    (settings : c.SameSettings disk disk') : c.run disk' = c.run disk := by
  simp only [run_eq, staged, plan_congr settings, failed, mapError_error, error_bind]

theorem run_congr_of_document {p : Plan} (planned : c.plan disk = .ok p)
    (failed : p.document disk = .error f) (settings : c.SameSettings disk disk')
    (document : c.SameDocument disk disk') : c.run disk' = c.run disk := by
  have same : p.document disk' = p.document disk := by
    rw [Plan.document, Plan.document, document p.path (documentPath?_of_plan planned)]
  simp only [run_eq, staged, plan_congr settings, planned, mapError_ok, ok_bind, Plan.run, same,
    failed, error_bind]

end Failures

end Command

/-- Where a command fails, it has written nothing. A failure of the settings is there on every disk
with the same settings, one of the document on every disk with the same settings and the same
document, and only one of the quotes can be absent there. -/
structure Failure.Staged (f : Failure) (c : Command) (disk : Disk Id) : Prop where
  silent : (c.run disk).written = ""
  settings : f.exitCode = 2 → ∀ disk', c.SameSettings disk disk' → c.run disk' = c.run disk
  document : f.exitCode = 1 ∨ f.exitCode = 4 → ∀ disk', c.SameSettings disk disk' →
    c.SameDocument disk disk' → c.run disk' = c.run disk
  data : ∀ disk', c.SameSettings disk disk' → c.SameDocument disk disk' →
    c.run disk' ≠ c.run disk → f.exitCode = 3

namespace Command

/-- Failures are staged, whatever is on the disk. -/
theorem run_staged (c : Command) (disk : Disk Id) (f : Failure)
    (failed : (c.run disk).failure = some f) : f.Staged c disk := by
  have stopped : c.staged disk = .error f := staged_of_run_failure failed
  have silent : (c.run disk).written = "" := by
    rw [run_eq, stopped]
    rfl
  -- Each stage that can fail fixes the exit code, and with it which of the four parts has content.
  rcases staged_eq_error stopped with ⟨fault, rfl, refused⟩ | ⟨p, planned, refused⟩ | ⟨fault, rfl⟩
  · have same : ∀ disk', c.SameSettings disk disk' → c.run disk' = c.run disk :=
      fun disk' => run_congr_of_settings refused
    constructor
    · exact silent
    · exact fun _ => same
    · exact fun _ disk' settings _ => same disk' settings
    · exact fun disk' settings _ differs => absurd (same disk' settings) differs
  · have same : ∀ disk', c.SameSettings disk disk' → c.SameDocument disk disk' →
        c.run disk' = c.run disk := fun disk' => run_congr_of_document planned refused
    have code := Plan.document_exitCode refused
    constructor
    · exact silent
    · intro settings
      omega
    · exact fun _ => same
    · exact fun disk' settings document differs => absurd (same disk' settings document) differs
  · constructor
    · exact silent
    · intro settings
      cases settings
    · rintro (file | document)
      · cases file
      · cases document
    · exact fun _ _ _ _ => rfl

/-- Settings without a strategy stop a backtest, a filter without a tag stops a screen and a
document that is cut short stops a validation, whether there are quotes or not. -/
theorem run_staged_untagged_filter :
    let file (path : String) : Except DiskFault String :=
      if path = "c.ini" then .ok "[data]\ndir=d\n" else
      if path = "f.json" then .ok "\x7b\x7d" else
      if path = "s.json" then .ok "\x7b\n  \"name\": \"cut\"" else .error .notFound
    let disk : Disk Id := ⟨file, fun _ => .error .notFound⟩
    let csv := "timestamp,open,high,low,close,volume\n2024-01-02 00:00:00,1,1,1,1,1\n"
    let filled : Disk Id := ⟨fun path => if path = "d/A.csv" then .ok csv else file path,
      fun _ => .ok ["A.csv"]⟩
    let backtest : Command := .backtest "c.ini" none
    let screen : Command := .screen "c.ini" "f.json"
    let validate : Command := .validate "s.json"
    let cut : Failure := .notJson "s.json" ⟨.cutObject, 2, 15⟩
    (backtest.run disk).failure = some (.settings (.missing "backtest" "strategy")) ∧
      backtest.SameSettings disk filled ∧ backtest.run filled = backtest.run disk ∧
    (screen.run disk).failure = some (.document ⟨[], .missingTag⟩) ∧
      screen.SameSettings disk filled ∧ screen.SameDocument disk filled ∧
      (screen.run disk).written = "" ∧ screen.run filled = screen.run disk ∧
    (validate.run disk).failure = some cut ∧ validate.run filled = validate.run disk ∧
      cut.message = "strategy document s.json is not valid JSON: " ++
        "EOF while parsing an object at line 2 column 15" := by
  intro file disk csv filled backtest screen validate cut
  have unset : (backtest.run disk).failure = some (.settings (.missing "backtest" "strategy")) := by
    rfl
  have untagged : (screen.run disk).failure = some (.document ⟨[], .missingTag⟩) := by
    decide +kernel
  have unread : (validate.run disk).failure = some cut := by decide +kernel
  have backtests : backtest.SameSettings disk filled := by
    rintro path ⟨⟩
    rfl
  have screens : screen.SameSettings disk filled := by
    rintro path ⟨⟩
    rfl
  have documents : screen.SameDocument disk filled := by
    rintro path ⟨⟩
    rfl
  have validates : validate.SameSettings disk filled := by
    rintro path ⟨⟩
  have drafts : validate.SameDocument disk filled := by
    rintro path ⟨⟩
    rfl
  have first := run_staged backtest disk _ unset
  have second := run_staged screen disk _ untagged
  have third := run_staged validate disk _ unread
  exact ⟨unset, backtests, first.settings rfl filled backtests, untagged, screens, documents,
    second.silent, second.document (.inr rfl) filled screens documents, unread,
    third.document (.inr rfl) filled validates drafts, by decide +kernel⟩

end Command

end TradingRules
