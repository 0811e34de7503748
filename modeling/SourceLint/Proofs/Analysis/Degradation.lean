import SourceLint.Proofs.Analysis.Configured
import SourceLint.Proofs.Config.Loading
import SourceLint.Proofs.Discovery.Names
import SourceLint.Proofs.Rule.Findings

/-! # Broken configurations

A document that cannot be loaded counts as none, and a setting that makes no sense counts as
one that is not there. Either is reported, and where nothing is reported everything that is
written counts.
-/

namespace SourceLint

/-- The report with more to say ahead of it. -/
def Report.after (told : List Diagnostic) (r : Report) : Report :=
  { r with diagnostics := told ++ r.diagnostics }

/-! ## Rules without the settings that make no sense -/

namespace Rule

variable {r : Rule} (config : Config)

theorem adjust_sensible (r : Rule) : r.adjust config.sensible = r.adjust config := by
  funext v
  rw [adjust, adjust, Config.ruleSeverity?, Config.ruleSettings?_sensible]
  rfl

theorem check_sensible (builtin : r ∈ all) {W : Source.Name → Prop} (file : SourceFile)
    (tree : Source.Tree W) : r.check config.sensible file tree = r.check config file tree :=
  check_congr builtin config.maxLineLength_sensible config.tabWidth_sensible
    config.includesPublic_sensible file tree

theorem checkAdjusted_sensible (builtin : r ∈ all) {W : Source.Name → Prop} (file : SourceFile)
    (tree : Source.Tree W) :
    checkAdjusted config.sensible file tree r = checkAdjusted config file tree r := by
  rw [checkAdjusted, check_sensible config builtin, adjust_sensible]
  rfl

/-- No function has a name that is blank, so blank patterns take none out of the report. -/
theorem finish_sensible (builtin : r ∈ all) {bank : Bank} {loads : Nat}
    (inked : ∀ m ∈ bank.symbols.toList, Text.isBlankText m.name = false) :
    r.finish ⟨config.sensible, bank, loads⟩ = r.finish ⟨config, bank, loads⟩ := by
  rcases mem_all_iff.mp builtin with rfl | rfl
  · rfl
  · change (UnusedFunction.unusedAmong config.sensible bank _).map _ =
      (UnusedFunction.unusedAmong config bank _).map _
    have same : ∀ m ∈ bank.symbols.toList,
        (Glob.compileAll config.sensible.functionExcludes).any (Glob.matches · m.name) =
          (Glob.compileAll config.functionExcludes).any (Glob.matches · m.name) := by
      intro m listed
      rw [Config.functionExcludes_sensible]
      exact Glob.matchesAny_filter_isSensible _ (inked m listed)
    have kept : bank.symbols.toList.filter (fun m => !UnusedFunction.isUsed bank m.name &&
          !(Glob.compileAll config.sensible.functionExcludes).any (Glob.matches · m.name)) =
        bank.symbols.toList.filter (fun m => !UnusedFunction.isUsed bank m.name &&
          !(Glob.compileAll config.functionExcludes).any (Glob.matches · m.name)) :=
      List.filter_congr fun m listed => by rw [same m listed]
    simp only [UnusedFunction.unusedAmong, kept]

theorem finishAll_sensible {rules : List Rule} (builtin : ∀ r ∈ rules, r ∈ all) {bank : Bank}
    {loads : Nat} (inked : ∀ m ∈ bank.symbols.toList, Text.isBlankText m.name = false) :
    finishAll ⟨config.sensible, bank, loads⟩ rules = finishAll ⟨config, bank, loads⟩ rules := by
  rw [finishAll, finishAll, List.flatMap_def, List.flatMap_def]
  congr 1
  refine List.map_congr_left fun r listed => ?_
  rw [finish_sensible config (builtin r listed) inked, adjust_sensible]

end Rule

namespace Analysis

variable {a : Analysis} {tree : FileTree} {config : Config} {paths : List Path}

/-! ## Runs without the settings that make no sense -/

theorem Defines.inked (builtin : ∀ r ∈ a.rules, r ∈ Rule.all) {m : Mention}
    (defined : Defines a tree config paths m) : Text.isBlankText m.name = false := by
  obtain ⟨path, _, all, reads, c, inside, defined⟩ := defined
  obtain ⟨content, text, syntaxTree, r, enabled, rfl⟩ := exists_of_mem_said reads inside
  obtain ⟨name, rfl⟩ := Rule.mentions_checkAdjusted (mem_enabledRules builtin enabled) config _
    syntaxTree m defined.mention
  exact name.holds.inked

/-- No source file is called by a blank name, so blank patterns leave none out. -/
theorem sources_sensible (a : Analysis) (tree : FileTree) (config : Config) :
    a.sources tree config.sensible = a.sources tree config := by
  rw [sources, sources, discover, discover]
  cases expanded : Glob.expand tree (sourcePattern a.fullRoot) with
  | error e => rfl
  | ok all =>
      have kept : all.filter (fun path =>
            !isExcluded (a.ownExcludes ++ config.sensible.excludePatterns) path) =
          all.filter (fun path => !isExcluded (a.ownExcludes ++ config.excludePatterns) path) := by
        refine List.filter_congr fun path listed => ?_
        rw [isExcluded, isExcluded, Glob.matchesAny_append, Glob.matchesAny_append,
          Config.excludePatterns_sensible,
          Glob.matchesAny_filter_isSensible _ (inked_of_mem_expand expanded path listed)]
      exact congrArg Except.ok kept

theorem enabledRules_sensible (a : Analysis) (config : Config) :
    a.enabledRules config.sensible = a.enabledRules config := by
  simp only [enabledRules, Config.isRuleEnabled, Config.ruleSettings?_sensible]

theorem inspect_sensible {rules : List Rule} (builtin : ∀ r ∈ rules, r ∈ Rule.all)
    (tree : FileTree) (root : Path) (config : Config) :
    inspect tree root config.sensible rules = inspect tree root config rules := by
  have same {W : Source.Name → Prop} (file : SourceFile) (syntaxTree : Source.Tree W) :
      rules.map (Rule.checkAdjusted config.sensible file syntaxTree) =
        rules.map (Rule.checkAdjusted config file syntaxTree) :=
    List.map_congr_left fun r listed =>
      Rule.checkAdjusted_sensible config (builtin r listed) file syntaxTree
  funext path
  simp only [inspect, checkEach, same]

theorem report_sensible {rules : List Rule} (builtin : ∀ r ∈ rules, r ∈ Rule.all) (config : Config)
    {checked : List Checked}
    (inked : ∀ m ∈ (bankOf checked).symbols.toList, Text.isBlankText m.name = false) :
    report { config := config.sensible } 1 rules checked = report { config } 1 rules checked := by
  rw [report, report, Rule.finishAll_sensible config builtin inked]
  rfl

/-- Without the settings that make no sense a run comes to the same. -/
theorem runWith_sensible (builtin : ∀ r ∈ a.rules, r ∈ Rule.all) (tree : FileTree)
    (config : Config) : a.runWith tree config.sensible = a.runWith tree config := by
  have listed : ∀ r ∈ a.enabledRules config, r ∈ Rule.all :=
    fun r enabled => mem_enabledRules builtin enabled
  have sources' := sources_sensible a tree config
  cases sources : a.sources tree config with
  | error failure =>
      rw [sources] at sources'
      rw [runWith, runLoaded, runWith, runLoaded, sources, sources']
      rfl
  | ok paths =>
      rw [sources] at sources'
      have inked : ∀ m ∈ (bankOf (successes (paths.map (inspect tree a.fullRoot config
          (a.enabledRules config))))).symbols.toList, Text.isBlankText m.name = false :=
        fun m member => ((holds_bankOf a tree config paths).sound m member).inked builtin
      rw [runWith_of_ok sources', runWith_of_ok sources, conclude_eq builtin, conclude_eq builtin]
      dsimp only
      rw [enabledRules_sensible, inspect_sensible listed, report_sensible listed config inked]

/-! ## What is said about the configuration -/

/-- What is said about the configuration comes ahead of the findings and changes none. -/
theorem runLoaded_eq (a : Analysis) (tree : FileTree) (outcome : LoadOutcome) :
    a.runLoaded tree outcome =
      (a.runWith tree outcome.config).map (Report.after outcome.diagnostics) := by
  cases sources : a.sources tree outcome.config with
  | error failure =>
      rw [runWith, runLoaded, runLoaded, sources]
      rfl
  | ok paths =>
      rw [runLoaded_of_ok sources, runWith_of_ok sources, conclude, conclude]
      dsimp only
      split
      · rfl
      · split <;> rfl

theorem exists_isOf_of_mem_inspected (builtin : ∀ r ∈ a.rules, r ∈ Rule.all) {v : Violation}
    (found : v ∈ (successes (paths.map (inspect tree a.fullRoot config
      (a.enabledRules config)))).flatMap (·.violations)) :
    ∃ r ∈ Rule.all, ∃ severity, v.IsOf r severity := by
  obtain ⟨path, _, content, syntaxTree, r, enabled, w, own, rfl⟩ :=
    exists_check_of_mem_inspected found
  have listed := mem_enabledRules builtin enabled
  exact ⟨r, listed, _, Rule.isOf_adjust (Rule.isOf_check listed config _ syntaxTree w own)⟩

/-- What the rules there are find is not about the configuration. -/
theorem code_of_runWith (builtin : ∀ r ∈ a.rules, r ∈ Rule.all) {report : Report}
    (returned : a.runWith tree config = .ok report) :
    ∀ d ∈ report.diagnostics, d.code ≠ "PL000" := by
  have listed : ∀ r ∈ a.enabledRules config, r ∈ Rule.all :=
    fun r enabled => mem_enabledRules builtin enabled
  cases sources : a.sources tree config with
  | error failure =>
      rw [runWith, runLoaded, sources] at returned
      cases returned
  | ok paths =>
      rw [runWith_of_ok sources, conclude_eq builtin] at returned
      split at returned
      · cases returned
      · cases returned
        intro d member
        obtain ⟨v, found, rfl⟩ := List.mem_map.mp (List.mem_mergeSort.mp member)
        have own : ∃ r ∈ Rule.all, ∃ severity, v.IsOf r severity := by
          rcases List.mem_append.mp found with inFile | atEnd
          · exact exists_isOf_of_mem_inspected builtin inFile
          · obtain ⟨r, enabled, own⟩ := (Rule.endsAll_finishAll _ _).isOf listed v atEnd
            exact ⟨r, listed r enabled, _, own⟩
        obtain ⟨r, inside, _, own⟩ := own
        change v.code ≠ "PL000"
        rw [own.code]
        exact Rule.code_ne_configCode inside

/-! ## The law of broken configurations -/

/-- What becomes of a configuration that is broken, altogether or in some of its settings. -/
structure Degradation (a : Analysis) (tree : FileTree) : Prop where
  /-- Diagnostics of this code are about the configuration, and findings are not. -/
  findings {config : Config} {report : Report} (returned : a.runWith tree config = .ok report) :
    ∀ d ∈ report.diagnostics, d.code ≠ "PL000"
  /-- Without a document there are findings alone. -/
  bare : { a with document := .absent }.run tree false = a.runWith tree {}
  /-- A document that cannot be loaded counts as none, and one diagnostic says so. -/
  failed {failure : LoadFailure} (fails : (a.outcome tree).failure = some failure)
    (cancelled : Bool) : ∃ d : Diagnostic, d.code = "PL000" ∧
      a.run tree cancelled =
        ({ a with document := .absent }.run tree cancelled).map (Report.after [d])
  /-- Settings that make no sense count as if they were not there. -/
  removed : a.run tree false =
    (a.runWith tree (a.outcome tree).config.sensible).map
      (Report.after (a.outcome tree).diagnostics)
  /-- A document without those settings leads to the same findings. -/
  rewritten (document : Document)
    (rewrites : ({ a with document := document }.outcome tree).config =
      (a.outcome tree).config.sensible) :
    { a with document := document }.run tree false =
      (a.runWith tree (a.outcome tree).config.sensible).map
        (Report.after ({ a with document := document }.outcome tree).diagnostics)
  workers : (a.outcome tree).config.sensible.parallelism? = (a.outcome tree).config.parallelism?
  /-- For each of those settings there is a diagnostic at its position. -/
  reported (loads : (a.outcome tree).failure = none) :
    ((a.outcome tree).config.removed.map (placeIn a.document.path?)).Subperm
      ((a.outcome tree).diagnostics.map Diagnostic.place)
  /-- All of it is about the configuration. -/
  codes : ∀ d ∈ (a.outcome tree).diagnostics, d.code = "PL000"
  /-- Where nothing is said everything that is written counts. -/
  effective (silent : (a.outcome tree).diagnostics = []) : (a.outcome tree).config.IsEffective
  /-- No source file is left that one of the excludes matches. -/
  excludes (silent : (a.outcome tree).diagnostics = []) (paths : List Path)
    (sources : a.sources tree (a.outcome tree).config = .ok paths) :
    ∀ p ∈ (a.outcome tree).config.excludePatterns, ∃ tokens, Glob.compile p = .ok tokens ∧
      ∀ path ∈ paths, Glob.matches tokens path.text = false
  /-- No function is reported that one of the excludes matches. -/
  functionExcludes (silent : (a.outcome tree).diagnostics = []) (bank : Bank) :
    ∀ p ∈ (a.outcome tree).config.functionExcludes, ∃ tokens, Glob.compile p = .ok tokens ∧
      ∀ m ∈ UnusedFunction.unused (a.outcome tree).config bank,
        Glob.matches tokens m.name = false

theorem failure_of_silent (silent : (a.outcome tree).diagnostics = []) :
    (a.outcome tree).failure = none := by
  cases failure : (a.outcome tree).failure with
  | none => rfl
  | some failure =>
      rw [LoadOutcome.diagnostics, failure] at silent
      cases silent

theorem isEffective_of_silent (silent : (a.outcome tree).diagnostics = []) :
    (a.outcome tree).config.IsEffective := by
  have reported := Document.removed_reported _ a.document (failure_of_silent silent)
  change List.Subperm _ ((a.outcome tree).diagnostics.map Diagnostic.place) at reported
  rw [silent, List.map_nil, List.subperm_nil, List.map_eq_nil_iff] at reported
  exact Config.isEffective reported

/-- A run whose document cannot be loaded. -/
theorem run_of_failed {path : Path} {failure : LoadFailure}
    (fails : a.outcome tree = .failed path failure) (cancelled : Bool) :
    a.run tree cancelled = ({ a with document := .absent }.run tree cancelled).map
      (Report.after [.ofConfig (some path) failure.position? failure.message]) := by
  cases cancelled with
  | true => rfl
  | false =>
      rw [run_eq_runLoaded, run_eq_runLoaded, runLoaded_eq, fails]
      change (a.runWith tree {}).map _ = (a.runWith tree {}).map _
      rfl

theorem not_isExcluded_of_mem_sources (sources : a.sources tree config = .ok paths) :
    ∀ path ∈ paths, isExcluded (a.ownExcludes ++ config.excludePatterns) path = false := by
  rw [Analysis.sources] at sources
  cases discovered : discover tree a.fullRoot (a.ownExcludes ++ config.excludePatterns) with
  | error e =>
      rw [discovered] at sources
      cases sources
  | ok found =>
      rw [discovered] at sources
      cases sources
      obtain ⟨all, _, rfl⟩ := discover_eq_ok_iff.mp discovered
      intro path member
      simpa using (List.mem_filter.mp member).2

/-- A broken configuration leads to the findings of one without what is broken in it, and never
does so silently. -/
theorem run_degrades (a : Analysis) (tree : FileTree) (builtin : ∀ r ∈ a.rules, r ∈ Rule.all) :
    Degradation a tree where
  findings := code_of_runWith builtin
  bare := rfl
  failed {failure} fails cancelled := by
    rcases Document.load_cases _ a.document with ⟨path, failure, _, failed⟩ | ⟨config, loaded⟩
    · refine ⟨_, ?_, run_of_failed failed cancelled⟩
      rw [Diagnostic.ofConfig]
      split <;> rfl
    · change (a.load tree a.document).failure = some failure at fails
      rw [load, loaded] at fails
      cases fails
  removed := by rw [run_eq_runLoaded, runLoaded_eq, runWith_sensible builtin]
  rewritten document rewrites := by
    rw [run_eq_runLoaded, runLoaded_eq, rewrites]
    rfl
  workers := Config.parallelism?_sensible _
  reported loads := Document.removed_reported _ a.document loads
  codes := LoadOutcome.code_of_mem_diagnostics
  effective := isEffective_of_silent
  excludes silent paths sources p member := by
    have sensible := (isEffective_of_silent silent).excludes p member
    obtain ⟨_, tokens, compiled⟩ := Glob.isSensible_iff.mp sensible
    refine ⟨tokens, compiled, fun path listed => ?_⟩
    exact Glob.matches_eq_false (List.mem_append_right _ member) compiled
      (not_isExcluded_of_mem_sources sources path listed)
  functionExcludes silent bank p member := by
    have sensible := (isEffective_of_silent silent).functionExcludes p member
    obtain ⟨_, tokens, compiled⟩ := Glob.isSensible_iff.mp sensible
    refine ⟨tokens, compiled, fun m reported => ?_⟩
    have kept := (List.mem_filter.mp (List.mem_mergeSort.mp reported)).2
    rw [Bool.and_eq_true, Bool.not_eq_true', Bool.not_eq_true'] at kept
    exact Glob.matches_eq_false member compiled kept.2

/-- All rules on a project whose configuration has four settings that make no sense, and one that
does. -/
def brokenSettings : Analysis :=
  { directory := ⟨"/"⟩, root := ⟨"p"⟩, rules := Rule.all
    document := .text ⟨"lint.xml"⟩ (
      "<config>\n<Analyzer parallelism='257'><Exclude pattern=' '/><Exclude pattern='['/></Analyzer>" ++
      "\n<LongLine maxLineLength='-8' tabWidth='+02'/></config>") }

/-- A project of one file with a tab in it. -/
def tabbedFile : FileTree :=
  .directory [("p", .directory [("a.rs", .ofText "\tfn f() {}")])]

theorem config_brokenSettings : (brokenSettings.outcome tabbedFile).config =
    { analyzer := some ⟨some 257, [⟨" ", some ⟨2, 29⟩⟩, ⟨"[", some ⟨2, 51⟩⟩], some ⟨2, 1⟩⟩
      longLine := some ⟨{}, some "-8", some "+02", some ⟨3, 1⟩⟩
      position := some ⟨1, 1⟩ } := by
  decide +kernel

/-- Each of the four is reported where it stands, and only the tabs of two columns remain. -/
theorem run_brokenSettings : (∀ r ∈ brokenSettings.rules, r ∈ Rule.all) ∧
    Degradation brokenSettings tabbedFile ∧
    (brokenSettings.outcome tabbedFile).config.sensible =
      { analyzer := some ⟨none, [], some ⟨2, 1⟩⟩
        longLine := some ⟨{}, none, some "+02", some ⟨3, 1⟩⟩
        position := some ⟨1, 1⟩ } ∧
    (brokenSettings.outcome tabbedFile).config.removed =
      [some ⟨2, 1⟩, some ⟨2, 29⟩, some ⟨2, 51⟩, some ⟨3, 1⟩] := by
  refine ⟨fun r member => member, run_degrades brokenSettings tabbedFile fun r member => member, ?_⟩
  rw [config_brokenSettings]
  decide

end Analysis

end SourceLint
