import SourceLint.Proofs.Analysis.Configured
import SourceLint.Proofs.Analysis.ScheduleIndependence
import SourceLint.Proofs.Diagnostic.Order
import SourceLint.Proofs.Rule.Findings

/-! # Reports are complete

A report holds what the configuration has to say for itself, and after it all that the rules
that are switched on have found: in every file that parses, and at the end with the facts of
all those files. Nothing is lost or said twice, and findings of one place keep the order of
the files and rules. This is so for one file after the other and under every schedule.
-/

namespace SourceLint

/-- A source file that parses. -/
structure Parsed where
  path : Path
  content : String
  syntaxTree : Source.Tree (Source.IsWordOf (Source.contentOf content))

/-- The file at a path, if it parses. -/
def FileTree.parsed? (tree : FileTree) (path : Path) : Option Parsed :=
  match tree.read path with
  | .error _ => none
  | .ok content => (Source.parse? content).map fun syntaxTree => ⟨path, content, syntaxTree⟩

/-- What a rule says about a file that parses. -/
def Parsed.checkedBy (config : Config) (root : Path) (f : Parsed) (r : Rule) : Checked :=
  r.check config (SourceFile.under root f.path f.content) f.syntaxTree

namespace Bank

theorem add_append (b : Bank) (f g : Facts) : b.add (f ++ g) = (b.add f).add g := by
  change Bank.mk _ _ _ = Bank.mk _ _ _
  congr 1
  · exact List.foldl_append
  · change b.invocations ++ (f.invocations ++ g.invocations) =
      b.invocations ++ f.invocations ++ g.invocations
    apply Array.ext'
    simp
  · exact List.foldl_append

theorem add_nothing (b : Bank) : b.add {} = b := by
  change Bank.mk _ _ _ = b
  simp [addSymbols, addInvocations]

theorem add_join (b : Bank) (all : List Checked) :
    b.add (Checked.join all).facts = (all.map (·.facts)).foldl add b := by
  induction all generalizing b with
  | nil => exact add_nothing b
  | cons c rest ih =>
      rw [Checked.join_cons, Checked.facts_append, add_append, ih]
      rfl

end Bank

namespace Analysis

section Files

variable (a : Analysis) (tree : FileTree) (config : Config) (paths : List Path)

/-- Those of the paths at which a file parses, with what is there. -/
def parsed : List Parsed :=
  paths.filterMap tree.parsed?

/-- What the rules that are switched on find in the files that parse, by file, then by rule. -/
def fileFindings : List Violation :=
  (parsed tree paths).flatMap fun f => (a.enabledRules config).flatMap fun r =>
    (f.checkedBy config a.fullRoot r).violations.map (r.adjust config)

/-- The facts that the rules that are switched on gather from the files that parse. -/
def fileFacts : List Facts :=
  (parsed tree paths).flatMap fun f => (a.enabledRules config).map fun r =>
    (f.checkedBy config a.fullRoot r).facts

/-- What the rules that are switched on say about a file that parses. -/
def saidOf (f : Parsed) : List Checked :=
  (a.enabledRules config).map
    (Rule.checkAdjusted config (SourceFile.under a.fullRoot f.path f.content) f.syntaxTree)

theorem toOption_said (path : Path) :
    (a.said tree config path).toOption = (tree.parsed? path).map (a.saidOf config) := by
  unfold said checkEach FileTree.parsed?
  cases tree.read path with
  | error e => rfl
  | ok content =>
      dsimp only
      cases Source.parse? content with
      | none => rfl
      | some syntaxTree => rfl

theorem successes_said :
    successes (paths.map (a.said tree config)) = (parsed tree paths).map (a.saidOf config) := by
  rw [successes, parsed, List.filterMap_map, List.map_filterMap]
  congr 1
  funext path
  exact a.toOption_said tree config path

theorem violations_saidOf (f : Parsed) :
    (a.saidOf config f).flatMap (·.violations) = (a.enabledRules config).flatMap fun r =>
      (f.checkedBy config a.fullRoot r).violations.map (r.adjust config) := by
  rw [saidOf, List.flatMap_map]
  rfl

theorem facts_saidOf (f : Parsed) :
    (a.saidOf config f).map (·.facts) =
      (a.enabledRules config).map fun r => (f.checkedBy config a.fullRoot r).facts := by
  rw [saidOf, List.map_map]
  rfl

theorem flatten_gathered : (successes (a.gathered tree paths)).flatten =
    a.fileFindings tree (a.outcome tree).config paths := by
  rw [gathered_eq, successes_map, successes_said, List.map_map, fileFindings, List.flatMap_def]
  congr 2
  funext f
  exact a.violations_saidOf _ f

theorem length_gathered :
    (successes (a.gathered tree paths)).length = (parsed tree paths).length := by
  rw [gathered_eq, successes_map, successes_said, List.length_map, List.length_map]

/-- The bank that one file after the other fills holds the facts of all files that parse. -/
theorem bankOf_inspected :
    bankOf (successes (paths.map (inspect tree a.fullRoot config (a.enabledRules config)))) =
      (a.fileFacts tree config paths).foldl Bank.add {} := by
  rw [map_inspect, successes_map, successes_said, List.map_map, bankOf, List.foldl_map, fileFacts,
    List.foldl_flatMap]
  congr 1
  funext bank f
  rw [← facts_saidOf]
  exact Bank.add_join bank _

end Files

/-- The bank holds the facts. -/
def HoldsFacts (bank : Bank) (facts : List Facts) : Prop :=
  bank.Holds (fun m => ∃ f ∈ facts, f.Defines m) fun name => ∃ f ∈ facts, f.Uses name

variable {a : Analysis} {tree : FileTree} {config : Config} {paths : List Path}

theorem exists_said_iff {p : Facts → Prop} :
    (∃ path ∈ paths, ∃ all, a.said tree config path = .ok all ∧ ∃ c ∈ all, p c.facts) ↔
      ∃ f ∈ a.fileFacts tree config paths, p f := by
  have said : ∀ all, (∃ path ∈ paths, a.said tree config path = .ok all) ↔
      ∃ f ∈ parsed tree paths, a.saidOf config f = all := by
    intro all
    have here := @mem_successes _ (paths.map (a.said tree config)) all
    rw [successes_said] at here
    simpa only [List.mem_map] using here.symm
  constructor
  · rintro ⟨path, listed, all, reads, c, member, holds⟩
    obtain ⟨f, parses, rfl⟩ := (said all).mp ⟨path, listed, reads⟩
    refine ⟨c.facts, List.mem_flatMap.mpr ⟨f, parses, ?_⟩, holds⟩
    rw [← facts_saidOf]
    exact List.mem_map_of_mem member
  · rintro ⟨facts, gathered, holds⟩
    obtain ⟨f, parses, inside⟩ := List.mem_flatMap.mp gathered
    rw [← facts_saidOf] at inside
    obtain ⟨c, member, rfl⟩ := List.mem_map.mp inside
    obtain ⟨path, listed, reads⟩ := (said _).mpr ⟨f, parses, rfl⟩
    exact ⟨path, listed, _, reads, c, member, holds⟩

theorem holdsFacts_of_holds {bank : Bank}
    (holds : bank.Holds (Defines a tree config paths) (Uses a tree config paths)) :
    HoldsFacts bank (a.fileFacts tree config paths) :=
  holds.congr (fun m => exists_said_iff (p := (·.Defines m)))
    fun name => exists_said_iff (p := (·.Uses name))

/-! ## The report -/

/-- The report is complete, given what the rules have said at the end. -/
structure IsComplete (a : Analysis) (tree : FileTree) (paths : List Path) (ended : List Violation)
    (report : Report) : Prop where
  /-- First what there is to say about the configuration, as it is. Then the findings in the
  order of their places; where places are equal those in files come first, by file and then by
  rule, and those at the end come last, by rule. -/
  diagnostics : ∃ findings, report.diagnostics = (a.outcome tree).diagnostics ++ findings ∧
    Diagnostic.Arranges findings
      ((a.fileFindings tree (a.outcome tree).config paths ++ ended).map Diagnostic.ofViolation)
  /-- Only rules that are switched on find anything, at the severity that the configuration
  gives them, or their own where it gives none. -/
  ofRules : ∀ v ∈ a.fileFindings tree (a.outcome tree).config paths ++ ended,
    ∃ r ∈ a.rules, (a.outcome tree).config.isRuleEnabled r.name = true ∧
      v.IsOf r (((a.outcome tree).config.ruleSeverity? r.name).getD r.severity)
  filesChecked : report.filesChecked = (parsed tree paths).length
  failOn : report.failOn = (a.outcome tree).config.failOn.getD .error

theorem isOf_fileFindings (builtin : ∀ r ∈ a.rules, r ∈ Rule.all) :
    ∀ v ∈ a.fileFindings tree config paths, ∃ r ∈ a.enabledRules config,
      v.IsOf r ((config.ruleSeverity? r.name).getD r.severity) := by
  intro v member
  obtain ⟨f, _, member⟩ := List.mem_flatMap.mp member
  obtain ⟨r, enabled, member⟩ := List.mem_flatMap.mp member
  obtain ⟨w, found, rfl⟩ := List.mem_map.mp member
  exact ⟨r, enabled, Rule.isOf_adjust
    (Rule.isOf_check (mem_enabledRules builtin enabled) config _ f.syntaxTree w found)⟩

/-- What is put together when all files are done is complete. -/
theorem isComplete_of_endsAll (builtin : ∀ r ∈ a.rules, r ∈ Rule.all) {run : Run}
    {ended : List Violation} (loaded : run.config = (a.outcome tree).config)
    (ends : Rule.EndsAll run (a.enabledRules (a.outcome tree).config) ended) {report : Report}
    (result : a.resultWith tree paths ended = .ok report) :
    a.IsComplete tree paths ended report := by
  cases result
  constructor
  · refine ⟨_, rfl, ?_⟩
    rw [flatten_gathered]
    exact Diagnostic.arranges_mergeSort _
  · intro v member
    have found : ∃ r ∈ a.enabledRules (a.outcome tree).config,
        v.IsOf r (((a.outcome tree).config.ruleSeverity? r.name).getD r.severity) := by
      rcases List.mem_append.mp member with inFile | atEnd
      · exact isOf_fileFindings builtin v inFile
      · have own := ends.isOf (fun r inside => mem_enabledRules builtin inside) v atEnd
        rwa [loaded] at own
    obtain ⟨r, inside, own⟩ := found
    obtain ⟨listed, enabled⟩ := List.mem_filter.mp inside
    exact ⟨r, listed, enabled, own⟩
  · exact a.length_gathered tree paths
  · rfl

theorem run_eq_resultWith (builtin : ∀ r ∈ a.rules, r ∈ Rule.all) {report : Report}
    (sources : a.sources tree (a.outcome tree).config = .ok paths)
    (returned : a.run tree false = .ok report) :
    a.resultWith tree paths (Rule.finishAll ⟨(a.outcome tree).config,
      (a.fileFacts tree (a.outcome tree).config paths).foldl Bank.add {}, 1⟩
      (a.enabledRules (a.outcome tree).config)) = .ok report := by
  rw [run_of_ok builtin sources] at returned
  split at returned
  · cases returned
  · rw [← returned, resultWith, ← successes_inspect, List.length_map, ← List.flatMap_def,
      ← bankOf_inspected]
    rfl

/-- Under every schedule, what is returned has been put together with a bank that holds the facts
of all files that parse. -/
theorem Reaches.exists_isComplete (builtin : ∀ r ∈ a.rules, r ∈ Rule.all) {workers : Nat}
    {cancelled : Bool} {s : State} {report : Report}
    (reaches : Reaches a tree workers (a.start cancelled) s)
    (returned : s.stage = .returned (.ok report)) :
    ∃ paths run ended, a.sources tree (a.outcome tree).config = .ok paths ∧
      run.config = (a.outcome tree).config ∧
      HoldsFacts run.bank (a.fileFacts tree (a.outcome tree).config paths) ∧
      Rule.EndsAll run (a.enabledRules (a.outcome tree).config) ended ∧
      a.IsComplete tree paths ended report := by
  induction reaches with
  | refl => cases returned
  | tail before happens ih =>
      have sound := Reaches.sound builtin before
      cases happens with
      | cancel => exact ih returned
      | step step =>
          cases step with
          | finish fine ends =>
              cases sound with
              | collecting sources holds =>
                  cases returned
                  exact ⟨_, _, _, sources, rfl, holdsFacts_of_holds holds, ends,
                    isComplete_of_endsAll builtin rfl ends rfl⟩
          | _ => cases returned

/-- Nothing that rules find is lost, and nothing else is reported. -/
structure Completeness (a : Analysis) (tree : FileTree) : Prop where
  /-- At the end the bank holds the facts of the files that parse, one after the other. -/
  run {cancelled : Bool} {report : Report} (returned : a.run tree cancelled = .ok report) :
    ∃ paths, a.sources tree (a.outcome tree).config = .ok paths ∧
      a.IsComplete tree paths (Rule.finishAll ⟨(a.outcome tree).config,
        (a.fileFacts tree (a.outcome tree).config paths).foldl Bank.add {}, 1⟩
        (a.enabledRules (a.outcome tree).config)) report
  /-- The same with any number of workers, in whatever order they take the files and post what
  they find. -/
  schedule {workers : Nat} {cancelled : Bool} {s : State} {report : Report}
    (reaches : Reaches a tree workers (a.start cancelled) s)
    (returned : s.stage = .returned (.ok report)) :
    ∃ paths run ended, a.sources tree (a.outcome tree).config = .ok paths ∧
      run.config = (a.outcome tree).config ∧
      HoldsFacts run.bank (a.fileFacts tree (a.outcome tree).config paths) ∧
      Rule.EndsAll run (a.enabledRules (a.outcome tree).config) ended ∧
      a.IsComplete tree paths ended report
  switchedOff (cancelled : Bool) :
    ({ a with rules := a.enabledRules (a.outcome tree).config } : Analysis).run tree cancelled =
      a.run tree cancelled

/-- With the rules there are, a report holds exactly the diagnostics of the configuration and
all findings, in order. -/
theorem run_complete (a : Analysis) (tree : FileTree) (builtin : ∀ r ∈ a.rules, r ∈ Rule.all) :
    Completeness a tree where
  run {cancelled report} returned := by
    cases cancelled with
    | true => cases returned
    | false =>
        cases sources : a.sources tree (a.outcome tree).config with
        | error failure =>
            rw [run_of_error sources] at returned
            cases returned
        | ok paths =>
            exact ⟨paths, rfl, isComplete_of_endsAll builtin rfl (Rule.endsAll_finishAll _ _)
              (run_eq_resultWith builtin sources returned)⟩
  schedule reaches returned := reaches.exists_isComplete builtin returned
  switchedOff cancelled := a.run_enabledRules tree cancelled

/-- A project of one file. -/
def oneFile : FileTree :=
  .directory [("p", .directory [("a.rs", .ofText "fn f() {}")])]

/-- All rules, of which one is switched off, and the other one finds errors in lines of nine
columns. -/
def strictLines : Analysis :=
  { allRules with document := .text ⟨"lint.xml"⟩ (
      "<config><LongLine maxLineLength='8' severity='error'/>" ++
      "<UnusedFunction enabled='false'/></config>") }

theorem outcome_strictLines : strictLines.outcome oneFile =
    { path := some ⟨"lint.xml"⟩
      config :=
        { longLine := some ⟨⟨none, some .error⟩, some "8", none, some ⟨1, 9⟩⟩
          unusedFunction := some ⟨⟨some false, none⟩, none, [], some ⟨1, 55⟩⟩
          position := some ⟨1, 1⟩ } } := by
  decide +kernel

theorem inspect_strictLines : inspect oneFile strictLines.fullRoot
    (strictLines.outcome oneFile).config [LongLine.rule] ⟨"/p/a.rs"⟩ =
      .ok { violations := [⟨"PL001", "long-line", .error, ⟨⟨"/p/a.rs"⟩, 1, 9⟩,
        "line is 9 columns wide, maximum is 8"⟩] } := by
  have reads : oneFile.read ⟨"/p/a.rs"⟩ = .ok "fn f() {}" := by decide +kernel
  obtain ⟨t, parses⟩ := Option.isSome_iff_exists.mp
    (show (Source.parse? "fn f() {}").isSome by decide +kernel)
  have found : LongLine.violations (strictLines.outcome oneFile).config
      (SourceFile.under strictLines.fullRoot ⟨"/p/a.rs"⟩ "fn f() {}") =
        [LongLine.violation ⟨"/p/a.rs"⟩ 1 9 8] := by
    rw [outcome_strictLines]
    decide +kernel
  rw [inspect, checkEach, reads]
  dsimp only
  rw [parses]
  dsimp only
  rw [List.map_singleton, LongLine.checkAdjusted_rule, found, outcome_strictLines]
  rfl

/-- One line is too long, and an error because the configuration says so; that nothing uses the
function is not reported. -/
theorem run_strictLines : (∀ r ∈ strictLines.rules, r ∈ Rule.all) ∧
    Completeness strictLines oneFile ∧
    ∃ report, strictLines.run oneFile false = .ok report ∧ report.filesChecked = 1 ∧
      report.diagnostics = [⟨some ⟨"/p/a.rs"⟩, 0, 8, .error, "PL001", "long-line",
        "line is 9 columns wide, maximum is 8"⟩] := by
  have sources : strictLines.sources oneFile (strictLines.outcome oneFile).config =
      .ok [⟨"/p/a.rs"⟩] := by
    rw [outcome_strictLines]
    cbv
  have rules : strictLines.enabledRules (strictLines.outcome oneFile).config =
      [LongLine.rule] := by
    rw [outcome_strictLines]
    rfl
  refine ⟨fun r member => member,
    run_complete strictLines oneFile fun r member => member, ?_⟩
  rw [run_eq_runLoaded, runLoaded_of_ok sources, rules, conclude, List.map_singleton,
    inspect_strictLines]
  refine ⟨reportOf (strictLines.outcome oneFile) 1 [_], rfl, rfl, ?_⟩
  rw [reportOf, findings, List.map_singleton, List.mergeSort_singleton, outcome_strictLines]
  rfl

end Analysis

end SourceLint
