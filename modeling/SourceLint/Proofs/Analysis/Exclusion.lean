import SourceLint.CommandLine.Run
import SourceLint.Proofs.Analysis.Degradation
import SourceLint.Proofs.Analysis.Reading
import SourceLint.Proofs.Discovery.Excludes

/-! # What excludes do to a run

One more exclude takes the files out that it matches, and nothing else, wherever it is given: by the
configuration, or to the analysis itself as long as others are given there already. The first that is
given there takes the place of the default one, so that what a build leaves behind may come in. An
exclude that does not compile takes nothing out. Of those of the configuration each is reported, and
of the others none.
-/

namespace SourceLint.Analysis

/-- The analysis with other excludes of its own. -/
def excluding (a : Analysis) (excludes : List String) : Analysis :=
  { a with excludes }

/-- The exclude that counts where none is given. -/
def defaultExclude : String := "**/target/**"

/-- The paths without those that an exclude matches. -/
def without (p : String) (paths : List Path) : List Path :=
  paths.filter fun path => !isExcluded [p] path

variable {a : Analysis} {tree : FileTree} {config config' : Config} {excludes : List String}
  {p : String}

theorem ownExcludes_of_given (given : a.excludes ≠ []) : a.ownExcludes = a.excludes := by
  rw [ownExcludes, List.isEmpty_eq_false_iff.mpr given]
  rfl

theorem ownExcludes_of_bare (bare : a.excludes = []) : a.ownExcludes = [defaultExclude] := by
  rw [ownExcludes, bare]
  rfl

/-- An exclude on top of others, those of the analysis and those of a configuration taken together,
takes out what it matches. -/
theorem sources_of_adds
    (adds : ∀ q, q ∈ (a.excluding excludes).ownExcludes ++ config'.excludePatterns ↔
      q ∈ a.ownExcludes ++ config.excludePatterns ∨ q = p) :
    (a.excluding excludes).sources tree config' = (a.sources tree config).map (without p) := by
  have all : discover tree a.fullRoot
      ((a.excluding excludes).ownExcludes ++ config'.excludePatterns) =
        discover tree a.fullRoot (a.ownExcludes ++ config.excludePatterns ++ [p]) := by
    refine discover_congr (isExcluded_congr fun q => ?_)
    rw [adds, List.mem_append (s := a.ownExcludes ++ config.excludePatterns), List.mem_singleton]
  rw [sources, sources]
  change (discover tree a.fullRoot _).mapError _ = _
  rw [all, discover_append]
  cases discover tree a.fullRoot (a.ownExcludes ++ config.excludePatterns) <;> rfl

theorem sources_of_found {all : List Path}
    (found : discover tree a.fullRoot config.excludePatterns = .ok all) :
    a.sources tree config = .ok (all.filter fun path => !isExcluded a.ownExcludes path) := by
  -- In which order excludes are given makes no difference, so those of the analysis may come last.
  have turned : discover tree a.fullRoot (a.ownExcludes ++ config.excludePatterns) =
      discover tree a.fullRoot (config.excludePatterns ++ a.ownExcludes) :=
    discover_congr (isExcluded_congr fun q => by rw [List.mem_append, List.mem_append, or_comm])
  rw [sources, turned, discover_append, found]
  rfl

theorem mem_without {path : Path} {paths : List Path} :
    path ∈ without p paths ↔ path ∈ paths ∧ isExcluded [p] path = false := by
  rw [without, List.mem_filter, Bool.not_eq_true']

/-- Leaving one exclude out for another brings files in, unless the other matches all that the one
does. -/
theorem without_subset_iff {q : String} {all : List Path} :
    (∀ path ∈ without p all, path ∈ without q all) ↔
      ∀ path ∈ all, isExcluded [q] path = true → isExcluded [p] path = true := by
  constructor
  · intro inside path listed matched
    cases kept : isExcluded [p] path with
    | true => rfl
    | false =>
        have unmatched := (mem_without.mp (inside path (mem_without.mpr ⟨listed, kept⟩))).2
        exact absurd matched (by rw [unmatched]; exact Bool.false_ne_true)
  · intro covered path member
    obtain ⟨listed, kept⟩ := mem_without.mp member
    refine mem_without.mpr ⟨listed, ?_⟩
    cases matched : isExcluded [q] path with
    | false => rfl
    | true => exact absurd (covered path listed matched) (by rw [kept]; exact Bool.false_ne_true)

theorem without_eq_iff {q : String} {all : List Path} :
    without p all = without p (without q all) ↔ ∀ path ∈ without p all, path ∈ without q all := by
  constructor
  · intro same path member
    rw [same] at member
    exact (mem_without.mp member).1
  · intro inside
    rw [without, without, without, List.filter_filter]
    refine List.filter_congr fun path listed => ?_
    cases kept : isExcluded [p] path with
    | true => rfl
    | false =>
        have unmatched := (mem_without.mp (inside path (mem_without.mpr ⟨listed, kept⟩))).2
        rw [unmatched]
        rfl

/-- What becomes of the source files with one more exclude. -/
structure Exclusion (a : Analysis) (tree : FileTree) (p : String) : Prop where
  /-- Where others are given it takes out what it matches and nothing else, in whatever order they
  are given. -/
  more {excludes : List String} (given : a.excludes ≠ [])
    (adds : ∀ q, q ∈ excludes ↔ q ∈ a.excludes ∨ q = p) (config : Config) :
    (a.excluding excludes).sources tree config = (a.sources tree config).map (without p)
  /-- So it does where none is given, if the default one is given along with it. -/
  besideDefault (bare : a.excludes = []) (config : Config) :
    (a.excluding [defaultExclude, p]).sources tree config = (a.sources tree config).map (without p)
  /-- Otherwise it takes the place of the default one: what the one matches comes in, and what the
  other matches goes out. -/
  first (bare : a.excludes = []) {config : Config} {all : List Path}
    (found : discover tree a.fullRoot config.excludePatterns = .ok all) :
    a.sources tree config = .ok (without defaultExclude all) ∧
      (a.excluding [p]).sources tree config = .ok (without p all)
  /-- So no file comes in just where it matches all that the default one does, and only there does
  it take out what it matches and nothing else. -/
  boundary (bare : a.excludes = []) {config : Config} {all : List Path}
    (found : discover tree a.fullRoot config.excludePatterns = .ok all) :
    ((∀ path ∈ without p all, path ∈ without defaultExclude all) ↔
      ∀ path ∈ all, isExcluded [defaultExclude] path = true → isExcluded [p] path = true) ∧
    ((a.excluding [p]).sources tree config = (a.sources tree config).map (without p) ↔
      ∀ path ∈ all, isExcluded [defaultExclude] path = true → isExcluded [p] path = true)
  /-- An exclude of the configuration takes out what it matches and nothing else, whatever is given
  to the analysis. -/
  configured {config config' : Config}
    (adds : ∀ q, q ∈ config'.excludePatterns ↔ q ∈ config.excludePatterns ∨ q = p) :
    a.sources tree config' = (a.sources tree config).map (without p)
  /-- What is given to the analysis has no part in the configuration. -/
  outcome (excludes : List String) : (a.excluding excludes).outcome tree = a.outcome tree
  /-- What a command line gives is given to the analysis. -/
  commandLine (e : CommandLine.Environment) (project : Path) (options : CommandLine.CheckOptions)
    (document : Document) (excludes : List String) :
    CommandLine.analysis e project { options with excludes } document =
      (CommandLine.analysis e project options document).excluding excludes

theorem sources_of_first (bare : a.excludes = []) {all : List Path}
    (found : discover tree a.fullRoot config.excludePatterns = .ok all) :
    a.sources tree config = .ok (without defaultExclude all) ∧
      (a.excluding [p]).sources tree config = .ok (without p all) := by
  have own : (a.excluding [p]).ownExcludes = [p] := ownExcludes_of_given (List.cons_ne_nil p [])
  have sources := sources_of_found found
  have sources' := sources_of_found (a := a.excluding [p]) found
  rw [ownExcludes_of_bare bare] at sources
  rw [own] at sources'
  exact ⟨sources, sources'⟩

/-- One more exclude takes out what it matches and nothing else, but for the first that is given to
the analysis, which takes the place of the default one. -/
theorem sources_exclude (a : Analysis) (tree : FileTree) (p : String) : Exclusion a tree p where
  more {excludes} given adds config := by
    have more : (a.excluding excludes).excludes ≠ [] :=
      List.ne_nil_of_mem ((adds p).mpr (.inr rfl))
    refine sources_of_adds fun q => ?_
    rw [ownExcludes_of_given more, ownExcludes_of_given given, List.mem_append, List.mem_append,
      excluding, adds]
    tauto
  besideDefault bare config := by
    have more : (a.excluding [defaultExclude, p]).excludes ≠ [] := List.cons_ne_nil _ _
    refine sources_of_adds fun q => ?_
    rw [ownExcludes_of_given more, ownExcludes_of_bare bare, List.mem_append, List.mem_append,
      excluding, List.mem_cons, List.mem_singleton, List.mem_singleton]
    tauto
  first bare _ _ found := sources_of_first bare found
  boundary bare config all found := by
    obtain ⟨sources, sources'⟩ := sources_of_first (p := p) bare found
    refine ⟨without_subset_iff, ?_⟩
    rw [sources, sources', ← without_subset_iff, ← without_eq_iff]
    exact ⟨fun same => Except.ok.inj same, fun same => congrArg Except.ok same⟩
  configured {config config'} adds := by
    have all : ∀ q, q ∈ (a.excluding a.excludes).ownExcludes ++ config'.excludePatterns ↔
        q ∈ a.ownExcludes ++ config.excludePatterns ∨ q = p := by
      intro q
      rw [List.mem_append, List.mem_append, adds]
      exact or_assoc.symm
    exact sources_of_adds all
  outcome excludes := rfl
  commandLine e project options document excludes := rfl

/-- A project with what a generator leaves behind. -/
def leftByGenerator : FileTree :=
  .directory [("p", .directory [("gen", .directory [("a.rs", .ofText "")])])]

/-- One with what a build leaves behind. -/
def leftByBuild : FileTree :=
  .directory [("p", .directory [("target", .directory [("a.rs", .ofText "")])])]

/-- With the default exclude written out, one more takes out what it matches. -/
theorem sources_besideDefault : Exclusion allRules leftByGenerator "**/gen/**" ∧
    allRules.excludes = [] ∧ allRules.sources leftByGenerator {} = .ok [⟨"/p/gen/a.rs"⟩] ∧
    (allRules.excluding [defaultExclude, "**/gen/**"]).sources leftByGenerator {} = .ok [] := by
  have excludes := sources_exclude allRules leftByGenerator "**/gen/**"
  have sources : allRules.sources leftByGenerator {} = .ok [⟨"/p/gen/a.rs"⟩] := by cbv
  refine ⟨excludes, rfl, sources, ?_⟩
  rw [excludes.besideDefault rfl, sources]
  decide +kernel

/-- Without it, what a build leaves behind comes in with an exclude that matches none of it. -/
theorem sources_inPlaceOfDefault : allRules.excludes = [] ∧
    allRules.sources leftByBuild {} = .ok [] ∧
    (allRules.excluding ["**/gen/**"]).sources leftByBuild {} = .ok [⟨"/p/target/a.rs"⟩] := by
  have root : allRules.fullRoot = ⟨"/p"⟩ := by cbv
  have walked : Path.walked ⟨"/p"⟩ = ⟨"/p"⟩ := by cbv
  have below : sourcesBelow ⟨"/p"⟩ (.directory [("target", .directory [("a.rs", .ofText "")])]) =
      [⟨"/p/target/a.rs"⟩] := by cbv
  have here : leftByBuild.find ⟨"/p"⟩ =
      .ok (.directory [("target", .directory [("a.rs", .ofText "")])]) := rfl
  have found : discover leftByBuild allRules.fullRoot ({} : Config).excludePatterns =
      .ok [⟨"/p/target/a.rs"⟩] := by
    rw [root, discover_plain (by cbv) here (by decide), walked, below]
    rfl
  obtain ⟨sources, sources'⟩ := sources_of_first (p := "**/gen/**") rfl found
  refine ⟨rfl, ?_, ?_⟩
  · rw [sources]
    decide +kernel
  · rw [sources']
    decide +kernel

/-! ## Excludes that do not compile -/

/-- What is said of an exclude that does not compile. -/
def invalidMessage (pattern : String) (error : Glob.Error) : String :=
  "pattern \"" ++ pattern ++ "\" is not a valid glob: " ++ error.render

theorem checkExclude_of_error {e : ExcludeEntry} {error : Glob.Error}
    (invalid : Glob.compile e.pattern = .error error) :
    Config.checkExclude "pattern" e =
      some (Config.issueAt e.position (invalidMessage e.pattern error)) := by
  have inked : Text.isBlankText e.pattern = false := by
    cases blank : Text.isBlankText e.pattern with
    | false => rfl
    | true =>
        have all := List.all_eq_true.mp blank
        rw [Glob.compile_plain fun c member => Glob.isWild_of_isBlank (all c member)] at invalid
        cases invalid
  rw [Config.checkExclude, inked, if_neg Bool.false_ne_true, invalid]
  rfl

/-- Each exclude of a configuration that does not compile is an issue where it stands. -/
theorem mem_validate_of_error {s : AnalyzerSection} {e : ExcludeEntry} {error : Glob.Error}
    (section_ : config.analyzer = some s) (entry : e ∈ s.excludes)
    (invalid : Glob.compile e.pattern = .error error) :
    Config.issueAt e.position (invalidMessage e.pattern error) ∈ config.validate := by
  have found : Config.issueAt e.position (invalidMessage e.pattern error) ∈
      Config.analyzerIssues s :=
    List.mem_append_right _ (List.mem_filterMap.mpr ⟨e, entry, checkExclude_of_error invalid⟩)
  rw [Config.validate, List.mem_mergeSort, Config.issues, section_]
  exact List.mem_append_left _ (List.mem_append_left _ found)

theorem mem_diagnostics_of_error {s : AnalyzerSection} {e : ExcludeEntry} {error : Glob.Error}
    (section_ : (a.outcome tree).config.analyzer = some s) (entry : e ∈ s.excludes)
    (invalid : Glob.compile e.pattern = .error error) :
    .ofConfig a.document.path? (some (e.position.getD .start)) (invalidMessage e.pattern error) ∈
      (a.outcome tree).diagnostics := by
  rcases Document.load_cases (fun path => tree.read (a.directory.join path)) a.document with
    ⟨path, failure, _, failed⟩ | ⟨config, loaded⟩
  · change a.outcome tree = _ at failed
    rw [failed] at section_
    cases section_
  · change a.outcome tree = _ at loaded
    rw [loaded] at section_ ⊢
    exact List.mem_map.mpr ⟨_, mem_validate_of_error section_ entry invalid, rfl⟩

theorem sources_filter_isValid (a : Analysis) (tree : FileTree) (config : Config) :
    a.sources tree config = (discover tree a.fullRoot
      ((a.ownExcludes ++ config.excludePatterns).filter Glob.isValid)).mapError .badRoot := by
  rw [sources, discover_congr (isExcluded_filter_isValid _)]

/-- Excludes that do not compile might as well not be given to the analysis, as long as others
are. -/
theorem run_filter_isValid (valid : a.excludes.filter Glob.isValid ≠ []) (cancelled : Bool) :
    (a.excluding (a.excludes.filter Glob.isValid)).run tree cancelled = a.run tree cancelled := by
  have given : a.excludes ≠ [] := fun bare => valid (by rw [bare]; rfl)
  -- Something is still given to the analysis, so the default exclude does not come back.
  have own : (a.excluding (a.excludes.filter Glob.isValid)).ownExcludes =
      a.ownExcludes.filter Glob.isValid := by
    rw [ownExcludes_of_given given]
    exact ownExcludes_of_given valid
  have same : (a.excluding (a.excludes.filter Glob.isValid)).sources tree (a.outcome tree).config =
      a.sources tree (a.outcome tree).config := by
    rw [sources_filter_isValid, sources_filter_isValid, own, List.filter_append, List.filter_append,
      List.filter_filter]
    simp only [Bool.and_self]
    rfl
  cases cancelled with
  | true => rfl
  | false => exact congrArg (· >>= a.conclude tree (a.outcome tree)
      (a.enabledRules (a.outcome tree).config)) same

/-- What a report says about the configuration is what loading it has to say. -/
theorem told_of_run (builtin : ∀ r ∈ a.rules, r ∈ Rule.all) {cancelled : Bool} {report : Report}
    (returned : a.run tree cancelled = .ok report) :
    report.diagnostics.filter (·.code = "PL000") = (a.outcome tree).diagnostics := by
  cases cancelled with
  | true => cases returned
  | false =>
      rw [run_eq_runLoaded, runLoaded_eq] at returned
      cases found : a.runWith tree (a.outcome tree).config with
      | error failure =>
          rw [found] at returned
          cases returned
      | ok findings =>
          rw [found] at returned
          cases returned
          have told : (a.outcome tree).diagnostics.filter (·.code = "PL000") =
              (a.outcome tree).diagnostics :=
            List.filter_eq_self.mpr fun d member =>
              decide_eq_true (LoadOutcome.code_of_mem_diagnostics d member)
          have none : findings.diagnostics.filter (·.code = "PL000") = [] :=
            List.filter_eq_nil_iff.mpr fun d member =>
              fun same => code_of_runWith builtin found d member (of_decide_eq_true same)
          rw [Report.after, List.filter_append, told, none, List.append_nil]

/-- What becomes of excludes that do not compile. -/
structure SkippedExcludes (a : Analysis) (tree : FileTree) : Prop where
  /-- They are those that are skipped. -/
  skipped (config : Config) : a.sources tree config = (discover tree a.fullRoot
    ((a.ownExcludes ++ config.excludePatterns).filter Glob.isValid)).mapError .badRoot
  /-- Each that the configuration gives is reported where it stands. -/
  configured {cancelled : Bool} {report : Report} {s : AnalyzerSection} {e : ExcludeEntry}
    {error : Glob.Error} (returned : a.run tree cancelled = .ok report)
    (section_ : (a.outcome tree).config.analyzer = some s) (entry : e ∈ s.excludes)
    (invalid : Glob.compile e.pattern = .error error) :
    .ofConfig a.document.path? (some (e.position.getD .start)) (invalidMessage e.pattern error) ∈
      report.diagnostics
  /-- So each skipped pattern of the configuration is named. -/
  named {cancelled : Bool} {report : Report} (returned : a.run tree cancelled = .ok report) :
    ∀ p ∈ (a.outcome tree).config.excludePatterns, ∀ error, Glob.compile p = .error error →
      ∃ d ∈ report.diagnostics, d.code = "PL000" ∧ d.message = invalidMessage p error
  /-- Those that are given to the analysis are passed over in silence: others that compile given,
  the run comes to the same without them. -/
  unnamed (cancelled : Bool) (valid : a.excludes.filter Glob.isValid ≠ []) :
    (a.excluding (a.excludes.filter Glob.isValid)).run tree cancelled = a.run tree cancelled
  /-- Whatever is given to it, the same is said about the configuration. -/
  told {cancelled : Bool} {excludes : List String} {report report' : Report}
    (returned : a.run tree cancelled = .ok report)
    (returned' : (a.excluding excludes).run tree cancelled = .ok report') :
    report'.diagnostics.filter (·.code = "PL000") = report.diagnostics.filter (·.code = "PL000")

/-- Of the excludes that do not compile those of the configuration are reported, and those that are
given to the analysis are not. -/
theorem run_skipsExcludes (a : Analysis) (tree : FileTree) (builtin : ∀ r ∈ a.rules, r ∈ Rule.all) :
    SkippedExcludes a tree := by
  have configured {cancelled : Bool} {report : Report} {s : AnalyzerSection} {e : ExcludeEntry}
      {error : Glob.Error} (returned : a.run tree cancelled = .ok report)
      (section_ : (a.outcome tree).config.analyzer = some s) (entry : e ∈ s.excludes)
      (invalid : Glob.compile e.pattern = .error error) :
      .ofConfig a.document.path? (some (e.position.getD .start)) (invalidMessage e.pattern error) ∈
        report.diagnostics := by
    have said := mem_diagnostics_of_error section_ entry invalid
    rw [← told_of_run builtin returned] at said
    exact (List.mem_filter.mp said).1
  constructor
  · exact sources_filter_isValid a tree
  · exact configured
  · intro cancelled report returned p listed error invalid
    rw [Config.excludePatterns] at listed
    cases section_ : (a.outcome tree).config.analyzer with
    | none =>
        rw [section_] at listed
        cases listed
    | some s =>
        rw [section_] at listed
        obtain ⟨e, entry, rfl⟩ := List.mem_map.mp listed
        refine ⟨_, configured returned section_ entry invalid, ?_⟩
        rw [Diagnostic.ofConfig]
        split <;> exact ⟨rfl, rfl⟩
  · exact fun cancelled valid => run_filter_isValid valid cancelled
  · intro cancelled excludes report report' returned returned'
    rw [told_of_run builtin returned, told_of_run (a := a.excluding excludes) builtin returned']
    rfl

/-- The open bracket of that configuration is reported where it stands. -/
theorem run_openBracket : (∀ r ∈ brokenSettings.rules, r ∈ Rule.all) ∧
    SkippedExcludes brokenSettings tabbedFile ∧
    ∃ report, brokenSettings.run tabbedFile false = .ok report ∧
      .ofConfig (some ⟨"lint.xml"⟩) (some ⟨2, 51⟩) (invalidMessage "[" ⟨0, .openClass⟩) ∈
        report.diagnostics ∧
      invalidMessage "[" ⟨0, .openClass⟩ = "pattern \"[\" is not a valid glob: " ++
        "Pattern syntax error near position 0: invalid range pattern" := by
  have builtin : ∀ r ∈ brokenSettings.rules, r ∈ Rule.all := fun r member => member
  have skips := run_skipsExcludes brokenSettings tabbedFile builtin
  have sources : brokenSettings.sources tabbedFile (brokenSettings.outcome tabbedFile).config =
      .ok [⟨"/p/a.rs"⟩] := by
    rw [config_brokenSettings]
    cbv
  have reads : failure? brokenSettings.strict ([(⟨"/p/a.rs"⟩ : Path)].map tabbedFile.parse) = none := by
    refine failure?_false_parse_eq_none_iff.mpr fun path listed => ?_
    obtain rfl := List.mem_singleton.mp listed
    exact ⟨"\tfn f() {}", by decide +kernel⟩
  obtain ⟨report, returned⟩ := (exists_report_iff builtin sources).mpr reads
  have invalid : Glob.compile "[" = .error ⟨0, .openClass⟩ := by decide
  refine ⟨builtin, skips, report, returned, ?_, by decide +kernel⟩
  exact skips.configured (e := ⟨"[", some ⟨2, 51⟩⟩) returned
    (by rw [config_brokenSettings]) (by simp) invalid

/-- The same exclude given to the analysis is skipped, and nothing is said of it. -/
theorem run_openBracket_given : "[" ∈ (allRules.excluding ["["]).ownExcludes ∧
    Glob.compile "[" = .error ⟨0, .openClass⟩ ∧
    (allRules.excluding ["["]).run (.directory [("p", .directory [])]) false = .ok {} :=
  ⟨by decide, by decide, by cbv⟩

end SourceLint.Analysis
