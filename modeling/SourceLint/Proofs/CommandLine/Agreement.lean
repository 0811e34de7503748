import SourceLint.Proofs.Analysis.Completeness
import SourceLint.Proofs.CommandLine.Problems
import SourceLint.Proofs.Rule.Selection

/-! # What the commands make of a configuration

The problems of a configuration open every report, as errors under a code that no finding has. So
they fail a run whatever its threshold is, and where there are none the severities of the findings
settle how it ends. To check the configuration alone tells the same problems, in the same order and
at the same places, and no others would be told like that.
-/

namespace SourceLint

theorem Severity.error_reaches (threshold : Severity) : error.reaches threshold = true := by
  cases threshold <;> rfl

theorem LoadOutcome.isClean_eq_false_iff {o : LoadOutcome} :
    o.isClean = false ↔ o.diagnostics ≠ [] := by
  rw [Ne, diagnostics_eq_nil_iff, Bool.not_eq_true]

/-! ## Reports -/

/-- What a report makes of a configuration and of findings. -/
structure Report.Judges (outcome : LoadOutcome) (found : List Violation) (report : Report) :
    Prop where
  diagnostics : ∃ findings, report.diagnostics = outcome.diagnostics ++ findings ∧
    Diagnostic.Arranges findings (found.map Diagnostic.ofViolation)
  /-- The problems of the configuration are those of one code. -/
  problems : report.diagnostics.filter (·.code = "PL000") = outcome.diagnostics
  opens : (∃ x, report.diagnostics.head? = some x ∧ x.code = "PL000") ↔ outcome.isClean = false
  failOn : report.failOn = outcome.config.failOn.getD .error
  isFailure_iff : report.isFailure = true ↔
    outcome.isClean = false ∨ ∃ v ∈ found, v.severity.reaches report.failOn = true

namespace Analysis

/-- The report is that of a run: of one that goes through the files in order, or of one on any
schedule. -/
inductive Returns (a : Analysis) (tree : FileTree) (report : Report) : Prop where
  | run {cancelled : Bool} (returned : a.run tree cancelled = .ok report)
  | schedule {workers : Nat} {cancelled : Bool} {s : State}
      (reaches : Reaches a tree workers (a.start cancelled) s)
      (returned : s.stage = .returned (.ok report))

/-- The violations are what the rules that are switched on find, in files and then at the end, each
at the severity that the configuration gives its rule. -/
structure Finds (a : Analysis) (tree : FileTree) (found : List Violation) : Prop where
  whole : ∃ paths run ended, a.sources tree (a.outcome tree).config = .ok paths ∧
    run.config = (a.outcome tree).config ∧
    HoldsFacts run.bank (a.fileFacts tree (a.outcome tree).config paths) ∧
    Rule.EndsAll run (a.enabledRules (a.outcome tree).config) ended ∧
    found = a.fileFindings tree (a.outcome tree).config paths ++ ended
  effective : ∀ v ∈ found, ∃ r ∈ a.rules, (a.outcome tree).config.isRuleEnabled r.name = true ∧
    v.IsOf r (((a.outcome tree).config.ruleSeverity? r.name).getD r.severity)

variable {a : Analysis} {tree : FileTree} {report : Report} {paths : List Path}
  {ended : List Violation}

theorem isError_of_mem_diagnostics : ∀ x ∈ (a.outcome tree).diagnostics, x.severity = .error :=
  fun x said => (Document.each_of_load x said).2.2

theorem IsComplete.code_ne (builtin : ∀ r ∈ a.rules, r ∈ Rule.all)
    (complete : a.IsComplete tree paths ended report) :
    ∀ v ∈ a.fileFindings tree (a.outcome tree).config paths ++ ended, v.code ≠ configCode := by
  intro v found
  obtain ⟨r, listed, _, own⟩ := complete.ofRules v found
  rw [own.code]
  exact Rule.code_ne_configCode (builtin r listed)

/-- A complete report judges what it has been put together from. -/
theorem IsComplete.judges (builtin : ∀ r ∈ a.rules, r ∈ Rule.all)
    (complete : a.IsComplete tree paths ended report) : report.Judges (a.outcome tree)
      (a.fileFindings tree (a.outcome tree).config paths ++ ended) := by
  obtain ⟨findings, split, arranges⟩ := complete.diagnostics
  have listed {p : Diagnostic → Prop} : (∀ x ∈ findings, p x) ↔
      ∀ v ∈ a.fileFindings tree (a.outcome tree).config paths ++ ended, p (.ofViolation v) := by
    simp only [arranges.perm.mem_iff, List.forall_mem_map]
  have codes : ∀ x ∈ findings, x.code ≠ "PL000" := listed.mpr (complete.code_ne builtin)
  have ownCodes : ∀ x ∈ (a.outcome tree).diagnostics, x.code = "PL000" :=
    LoadOutcome.code_of_mem_diagnostics
  refine ⟨⟨findings, split, arranges⟩, ?_, ?_, complete.failOn, ?_⟩
  · rw [split, List.filter_append, List.filter_eq_self.mpr, List.filter_eq_nil_iff.mpr,
      List.append_nil]
    · simpa using codes
    · simpa using ownCodes
  · rw [LoadOutcome.isClean_eq_false_iff, split]
    cases said : (a.outcome tree).diagnostics with
    | nil =>
        refine iff_of_false ?_ (not_not.mpr rfl)
        rintro ⟨x, first, code⟩
        exact codes x (List.mem_of_mem_head? first) code
    | cons x rest =>
        have member : x ∈ (a.outcome tree).diagnostics := said ▸ List.mem_cons_self
        exact iff_of_true ⟨x, rfl, ownCodes x member⟩ (List.cons_ne_nil x rest)
  · have reached : findings.any (·.severity.reaches report.failOn) = true ↔
        ∃ v ∈ a.fileFindings tree (a.outcome tree).config paths ++ ended,
          v.severity.reaches report.failOn = true := by
      rw [List.any_eq_true]
      simpa [Diagnostic.ofViolation] using
        not_congr (@listed fun x => x.severity.reaches report.failOn = false)
    have problem : (a.outcome tree).diagnostics.any (·.severity.reaches report.failOn) = true ↔
        (a.outcome tree).diagnostics ≠ [] := by
      rw [Ne, List.eq_nil_iff_forall_not_mem, not_forall_not, List.any_eq_true]
      refine exists_congr fun x => and_iff_left_of_imp fun said => ?_
      rw [isError_of_mem_diagnostics x said]
      exact Severity.error_reaches _
    rw [Report.isFailure, Report.hasAt, split, List.any_append, Bool.or_eq_true, reached, problem,
      LoadOutcome.isClean_eq_false_iff]

/-- What is returned is complete, of a run in order as of one on a schedule. -/
theorem Returns.exists_isComplete (builtin : ∀ r ∈ a.rules, r ∈ Rule.all)
    (returns : a.Returns tree report) :
    ∃ paths run ended, a.sources tree (a.outcome tree).config = .ok paths ∧
      run.config = (a.outcome tree).config ∧
      HoldsFacts run.bank (a.fileFacts tree (a.outcome tree).config paths) ∧
      Rule.EndsAll run (a.enabledRules (a.outcome tree).config) ended ∧
      a.IsComplete tree paths ended report := by
  cases returns with
  | schedule reaches returned => exact reaches.exists_isComplete builtin returned
  | @run cancelled returned =>
      cases cancelled with
      | true => cases returned
      | false =>
          cases sources : a.sources tree (a.outcome tree).config with
          | error failure =>
              rw [run_of_error sources] at returned
              cases returned
          | ok paths =>
              have holds := holds_bankOf a tree (a.outcome tree).config paths
              rw [bankOf_inspected] at holds
              have ends := Rule.endsAll_finishAll ⟨(a.outcome tree).config,
                (a.fileFacts tree (a.outcome tree).config paths).foldl Bank.add {}, 1⟩
                (a.enabledRules (a.outcome tree).config)
              exact ⟨paths, _, _, rfl, rfl, holdsFacts_of_holds holds, ends,
                isComplete_of_endsAll builtin rfl ends (run_eq_resultWith builtin sources returned)⟩

/-- What is returned judges the configuration and all that is found. -/
theorem Returns.exists_judges (builtin : ∀ r ∈ a.rules, r ∈ Rule.all)
    (returns : a.Returns tree report) :
    ∃ found, a.Finds tree found ∧ report.Judges (a.outcome tree) found := by
  obtain ⟨paths, run, ended, sources, loaded, holds, ends, complete⟩ :=
    returns.exists_isComplete builtin
  exact ⟨_, ⟨⟨paths, run, ended, sources, loaded, holds, ends, rfl⟩, complete.ofRules⟩,
    complete.judges builtin⟩

end Analysis

/-! ## Commands -/

namespace CommandLine

/-- The output shows the problems first, in the order they have. -/
def Shows (problems : List Diagnostic) (output : String) : Format → Prop
  | .text => ∃ rest, output = String.join (problems.map Diagnostic.renderColoured) ++ rest
  | .compact => ∃ rest, output = String.join (problems.map fun x => x.render ++ "\n") ++ rest
  | .json => ∃ rest fields, output = (Json.object
      (("diagnostics", .array (problems.map Diagnostic.toJson ++ rest)) :: fields)).renderPretty ++
        "\n"

theorem shows_renderAs {problems findings : List Diagnostic} {report : Report}
    (split : report.diagnostics = problems ++ findings) (format : Format) :
    Shows problems (report.renderAs format) format := by
  cases format with
  | text =>
      rw [Shows, Report.renderAs, Report.renderColoured, split, List.map_append, String.join_append]
      simp only [String.append_assoc]
      exact ⟨_, rfl⟩
  | compact =>
      rw [Shows, Report.renderAs, Report.renderCompact, split, List.map_append, String.join_append]
      exact ⟨_, rfl⟩
  | json =>
      rw [Shows, Report.renderAs, Report.toJson, split, List.map_append]
      exact ⟨_, _, rfl⟩

variable {e : Environment} {tree : FileTree} {project path : Path} {options : CheckOptions}
  {document : Document}

/-- Checking the configuration agrees with a report on what the problems are. -/
structure Agrees (e : Environment) (tree : FileTree) (document : Document) (path : Path)
    (report : Report) : Prop where
  exit_iff : (checkConfig e tree document).exit = 1 ↔
    ∃ x, report.diagnostics.head? = some x ∧ x.code = "PL000"
  answers : checkConfig e tree document =
    answer path (shownText e tree path) (report.diagnostics.filter (·.code = "PL000"))
  places : (checkConfig e tree document).exit = 1 → (checkConfig e tree document).errors =
    (report.diagnostics.filter (·.code = "PL000")).map Diagnostic.renderPlace ++
      ["Found " ++ toString (report.diagnostics.filter (·.code = "PL000")).length ++
        " configuration problem(s)"]
  /-- No other problems would be answered like that. -/
  only : ∀ problems : List Diagnostic, (∀ x ∈ problems, IsProblem path x) →
    checkConfig e tree document = answer path (shownText e tree path) problems →
    report.diagnostics.filter (·.code = "PL000") = problems

theorem agrees_of_judges {a : Analysis} {report : Report} {found : List Violation}
    (here : e.directory = a.directory) (named : a.document.path? = some path)
    (judges : report.Judges (a.outcome tree) found) : Agrees e tree a.document path report := by
  have answers : checkConfig e tree a.document = answer path (shownText e tree path)
      (report.diagnostics.filter (·.code = "PL000")) := by
    rw [judges.problems, checkConfig_eq_answer named, here]
    rfl
  have isProblem : ∀ x ∈ report.diagnostics.filter (·.code = "PL000"), IsProblem path x := by
    rw [judges.problems]
    intro x said
    obtain ⟨placed, code, severity⟩ := Document.each_of_load x said
    exact ⟨placed.trans named, code, severity⟩
  refine ⟨?_, answers, ?_, ?_⟩
  · rw [answers, exit_answer, judges.opens, LoadOutcome.isClean_eq_false_iff, judges.problems]
  · intro fails
    rw [answers, exit_answer] at fails
    rw [answers, errors_answer fails]
  · intro problems isProblem' same
    exact eq_of_answer isProblem isProblem' (answers.symm.trans same)

theorem builtin_of_mem_analysis :
    ∀ r ∈ (analysis e project options document).rules, r ∈ Rule.all := by
  intro r listed
  unfold analysis at listed
  cases chosen : options.rules with
  | none => simpa [chosen] using listed
  | some choice =>
      apply Rule.builtin_of_mem_chosenBy choice
      simpa [chosen] using listed

/-- How a check of a project ends. -/
structure Ends (e : Environment) (tree : FileTree) (project : Path) (options : CheckOptions)
    (document : Document) : Prop where
  /-- With problems it fails, also where it cannot be carried out. -/
  fails (unclean : ((analysis e project options document).outcome tree).isClean = false) :
    (check e tree project options document).exit = 1
  exit_eq {report : Report}
    (returned : (analysis e project options document).run tree false = .ok report) :
    (check e tree project options document).exit = if report.isFailure then 1 else 0
  shows {report : Report}
    (returned : (analysis e project options document).run tree false = .ok report) :
    Shows (report.diagnostics.filter (·.code = "PL000"))
      (check e tree project options document).output options.format

theorem ends_check (e : Environment) (tree : FileTree) (project : Path) (options : CheckOptions)
    (document : Document) : Ends e tree project options document where
  fails unclean := by
    rw [check]
    split
    · rfl
    · rename_i report returned
      obtain ⟨found, _, judges⟩ := (Analysis.Returns.run returned).exists_judges
        builtin_of_mem_analysis
      rw [judges.isFailure_iff.mpr (.inl unclean)]
      rfl
  exit_eq returned := by rw [check, returned]
  shows {report} returned := by
    obtain ⟨found, _, judges⟩ := (Analysis.Returns.run returned).exists_judges
      builtin_of_mem_analysis
    obtain ⟨findings, split, _⟩ := judges.diagnostics
    rw [check, returned, judges.problems]
    exact shows_renderAs split options.format

/-- Every report of a run, on whatever schedule, opens with the problems of the configuration, and
is a failure where there is one, or else where a finding is bad enough. To check the configuration
alone tells the same problems; to check a project fails just where its report does. -/
theorem problems_fail :
    (∀ (a : Analysis) (tree : FileTree) (report : Report), (∀ r ∈ a.rules, r ∈ Rule.all) →
      a.Returns tree report →
      (∃ found, a.Finds tree found ∧ report.Judges (a.outcome tree) found) ∧
      ∀ (e : Environment) (path : Path), e.directory = a.directory →
        a.document.path? = some path → Agrees e tree a.document path report) ∧
    ∀ (e : Environment) (tree : FileTree) (project : Path) (options : CheckOptions)
      (document : Document), Ends e tree project options document := by
  refine ⟨fun a tree report builtin returns => ?_, ends_check⟩
  obtain ⟨found, finds, judges⟩ := returns.exists_judges builtin
  exact ⟨⟨found, finds, judges⟩, fun e path here named => agrees_of_judges here named judges⟩

/-- One rule, for lines of eight columns with tabs of none. -/
def noTabs : Analysis :=
  { directory := ⟨"/"⟩, root := ⟨"p"⟩, rules := [LongLine.rule]
    document := .text ⟨"lint.xml"⟩ "<config><LongLine maxLineLength='8' tabWidth='0'/></config>" }

theorem outcome_noTabs : noTabs.outcome Analysis.oneFile =
    { path := some ⟨"lint.xml"⟩
      config :=
        { longLine := some ⟨⟨none, none⟩, some "8", some "0", some ⟨1, 9⟩⟩
          position := some ⟨1, 1⟩ }
      issues := [⟨⟨1, 9⟩, "tabWidth must be a positive integer, found \"0\""⟩] } := by
  decide +kernel

theorem inspect_noTabs : Analysis.inspect Analysis.oneFile noTabs.fullRoot
    (noTabs.outcome Analysis.oneFile).config [LongLine.rule] ⟨"/p/a.rs"⟩ =
      .ok { violations := [LongLine.violation ⟨"/p/a.rs"⟩ 1 9 8] } := by
  have reads : Analysis.oneFile.read ⟨"/p/a.rs"⟩ = .ok "fn f() {}" := by decide +kernel
  obtain ⟨t, parses⟩ := Option.isSome_iff_exists.mp
    (show (Source.parse? "fn f() {}").isSome by decide +kernel)
  have found : LongLine.violations (noTabs.outcome Analysis.oneFile).config
      (SourceFile.under noTabs.fullRoot ⟨"/p/a.rs"⟩ "fn f() {}") =
        [LongLine.violation ⟨"/p/a.rs"⟩ 1 9 8] := by
    rw [outcome_noTabs]
    decide +kernel
  rw [Analysis.inspect, Analysis.checkEach, reads]
  dsimp only
  rw [parses]
  dsimp only
  rw [List.map_singleton, LongLine.checkAdjusted_rule, found, outcome_noTabs]
  rfl

theorem run_noTabs : noTabs.run Analysis.oneFile false = .ok
    { filesChecked := 1
      diagnostics := [
        ⟨some ⟨"lint.xml"⟩, 0, 8, .error, configCode, configRule,
          "tabWidth must be a positive integer, found \"0\""⟩,
        .ofViolation (LongLine.violation ⟨"/p/a.rs"⟩ 1 9 8)] } := by
  have sources : noTabs.sources Analysis.oneFile (noTabs.outcome Analysis.oneFile).config =
      .ok [⟨"/p/a.rs"⟩] := by
    rw [outcome_noTabs]
    cbv
  have rules : noTabs.enabledRules (noTabs.outcome Analysis.oneFile).config =
      [LongLine.rule] := by
    rw [outcome_noTabs]
    rfl
  have one : Analysis.findings [LongLine.violation ⟨"/p/a.rs"⟩ 1 9 8] =
      [.ofViolation (LongLine.violation ⟨"/p/a.rs"⟩ 1 9 8)] := by
    rw [Analysis.findings, List.map_singleton, List.mergeSort_singleton]
  rw [Analysis.run_eq_runLoaded, Analysis.runLoaded_of_ok sources, rules, Analysis.conclude,
    List.map_singleton, inspect_noTabs]
  change Except.ok (Analysis.reportOf _ 1 [LongLine.violation ⟨"/p/a.rs"⟩ 1 9 8]) = _
  rw [Analysis.reportOf, one, outcome_noTabs]
  rfl

/-- The one finding is a warning, and would not fail a run that fails on errors. -/
theorem fails_noTabs : ∃ report, noTabs.Returns Analysis.oneFile report ∧
    (∀ r ∈ noTabs.rules, r ∈ Rule.all) ∧
    (∃ found, noTabs.Finds Analysis.oneFile found ∧
      report.Judges (noTabs.outcome Analysis.oneFile) found) ∧
    Agrees { directory := noTabs.directory } Analysis.oneFile noTabs.document ⟨"lint.xml"⟩ report ∧
    report.isFailure = true ∧
    (check { directory := noTabs.directory } Analysis.oneFile ⟨"p"⟩ {}
      noTabs.document).exit = 1 := by
  have builtin : ∀ r ∈ noTabs.rules, r ∈ Rule.all :=
    List.forall_mem_singleton.mpr List.mem_cons_self
  have returns := Analysis.Returns.run run_noTabs
  obtain ⟨⟨found, finds, judges⟩, agrees⟩ :=
    problems_fail.1 noTabs Analysis.oneFile _ builtin returns
  have unclean : (noTabs.outcome Analysis.oneFile).isClean = false := by
    rw [outcome_noTabs]
    rfl
  have ends := problems_fail.2 { directory := noTabs.directory } Analysis.oneFile ⟨"p"⟩ {}
    noTabs.document
  exact ⟨_, returns, builtin, ⟨found, finds, judges⟩, agrees _ _ rfl rfl,
    judges.isFailure_iff.mpr (.inl unclean), ends.fails unclean⟩

end CommandLine

end SourceLint
