import SourceLint.CommandLine.Run
import SourceLint.Proofs.Analysis.Found
import SourceLint.Proofs.Analysis.Reading

/-! # Rules do not meddle with each other

Switching a rule off takes its findings out of a report, and another severity for it changes that of
its findings. All other diagnostics stay as they are, and all of them where they are. A run with some
of the rules finds what goes by their names among what a run with all of them finds.
-/

namespace SourceLint

/-! ## Reports -/

/-- The violation, with another severity if it goes by the name of a rule. -/
def Violation.recoloured (rule : String) (severity : Severity) (v : Violation) : Violation :=
  if v.rule = rule then { v with severity } else v

def Diagnostic.recoloured (rule : String) (severity : Severity) (d : Diagnostic) : Diagnostic :=
  if d.rule = rule then { d with severity } else d

/-- The report with those diagnostics alone whose name is kept. -/
def Report.keeping (kept : String → Bool) (r : Report) : Report :=
  { r with diagnostics := r.diagnostics.filter (kept ·.rule) }

def Report.recoloured (rule : String) (severity : Severity) (r : Report) : Report :=
  { r with diagnostics := r.diagnostics.map (·.recoloured rule severity) }

theorem Diagnostic.rule_ofConfig (path : Option Path) (position : Option Position)
    (message : String) : (ofConfig path position message).rule = configRule := by
  rw [ofConfig]
  split <;> rfl

theorem LoadOutcome.rule_of_mem_diagnostics {outcome : LoadOutcome} :
    ∀ d ∈ outcome.diagnostics, d.rule = configRule := by
  intro d member
  rw [LoadOutcome.diagnostics] at member
  split at member
  · cases List.mem_singleton.mp member
    exact Diagnostic.rule_ofConfig _ _ _
  · obtain ⟨issue, _, rfl⟩ := List.mem_map.mp member
    exact Diagnostic.rule_ofConfig _ _ _

namespace Diagnostic

variable {rule : String} {severity : Severity}

theorem recoloured_ofViolation (v : Violation) :
    ofViolation (v.recoloured rule severity) = (ofViolation v).recoloured rule severity := by
  rw [Violation.recoloured, recoloured]
  split
  · rename_i same
    exact (if_pos same).symm
  · rename_i other
    exact (if_neg other).symm

/-- Places do not depend on severities, and so neither does the order. -/
theorem le_recoloured (d e : Diagnostic) :
    le (d.recoloured rule severity) (e.recoloured rule severity) = le d e := by
  have path (d : Diagnostic) : (d.recoloured rule severity).path = d.path := by
    rw [recoloured]
    split <;> rfl
  have line (d : Diagnostic) : (d.recoloured rule severity).line = d.line := by
    rw [recoloured]
    split <;> rfl
  have column (d : Diagnostic) : (d.recoloured rule severity).column = d.column := by
    rw [recoloured]
    split <;> rfl
  simp only [le, compareLex, compareOn, path, line, column]

theorem key_recoloured {d e : Diagnostic} (same : d.key = e.key) :
    (d.recoloured rule severity).key = (e.recoloured rule severity).key := by
  simp only [key, Prod.mk.injEq] at same
  obtain ⟨path, line, column, shade, code, name, message⟩ := same
  rw [recoloured, recoloured, name]
  split <;> simp only [key, path, line, column, shade, code, name, message]

end Diagnostic

namespace Analysis

def withRules (a : Analysis) (rules : List Rule) : Analysis :=
  { a with rules }

def withDocument (a : Analysis) (document : Document) : Analysis :=
  { a with document }

variable {a a' : Analysis} {tree : FileTree} {outcome outcome' : LoadOutcome} {paths : List Path}

theorem findings_filter (kept : String → Bool) (violations : List Violation) :
    findings (violations.filter (kept ·.rule)) = (findings violations).filter (kept ·.rule) := by
  rw [findings, findings, ← Diagnostic.mergeSort_filter, List.filter_map]
  rfl

theorem findings_recoloured (rule : String) (severity : Severity) (violations : List Violation) :
    findings (violations.map (·.recoloured rule severity)) =
      (findings violations).map (·.recoloured rule severity) := by
  rw [findings, findings, List.map_mergeSort fun d _ e _ => (Diagnostic.le_recoloured d e).symm,
    List.map_map, List.map_map]
  congr 2
  funext v
  exact Diagnostic.recoloured_ofViolation v

theorem reportOf_filter (kept : String → Bool) (config : kept configRule = true) (files : Nat)
    (violations : List Violation) : reportOf outcome files (violations.filter (kept ·.rule)) =
      (reportOf outcome files violations).keeping kept := by
  have told : outcome.diagnostics.filter (kept ·.rule) = outcome.diagnostics :=
    List.filter_eq_self.mpr fun d member => by
      rw [LoadOutcome.rule_of_mem_diagnostics d member, config]
  rw [reportOf, findings_filter, Report.keeping, reportOf, List.filter_append, told]

theorem reportOf_recoloured {rule : String} (other : rule ≠ configRule) (severity : Severity)
    (files : Nat) (violations : List Violation) :
    reportOf outcome files (violations.map (·.recoloured rule severity)) =
      (reportOf outcome files violations).recoloured rule severity := by
  have told : outcome.diagnostics.map (·.recoloured rule severity) = outcome.diagnostics := by
    refine List.map_congr_left (g := id) (fun d member => ?_) |>.trans (List.map_id _)
    rw [Diagnostic.recoloured, LoadOutcome.rule_of_mem_diagnostics d member, if_neg other.symm]
    rfl
  rw [reportOf, findings_recoloured, Report.recoloured, reportOf, List.map_append, told]

/-! ## Runs -/

/-- What the rules that are switched on find in files. -/
def foundWith (a : Analysis) (config : Config) (files : List Parsed) : List Violation :=
  found a.fullRoot config (a.enabledRules config) files

theorem report_inspected (a : Analysis) (tree : FileTree) (outcome : LoadOutcome)
    (paths : List Path) :
    report outcome 1 (a.enabledRules outcome.config) (successes (paths.map
      (inspect tree a.fullRoot outcome.config (a.enabledRules outcome.config)))) =
        reportOf outcome (parsed tree paths).length
          (a.foundWith outcome.config (parsed tree paths)) := by
  have checked := congrArg (List.map Checked.join) (a.successes_said tree outcome.config paths)
  rw [← successes_map, ← map_inspect, List.map_map] at checked
  have violations : (successes (paths.map (inspect tree a.fullRoot outcome.config
      (a.enabledRules outcome.config)))).flatMap (·.violations) =
        foundInFiles a.fullRoot outcome.config (a.enabledRules outcome.config)
          (parsed tree paths) := by
    rw [checked, List.flatMap_map]
    refine congrArg (parsed tree paths).flatMap (funext fun f => ?_)
    exact (Checked.violations_join _).trans (a.violations_saidOf outcome.config f)
  rw [report, violations, bankOf_inspected, checked, List.length_map]
  rfl

theorem runLoaded_eq_reportOf (builtin : ∀ r ∈ a.rules, r ∈ Rule.all)
    (sources : a.sources tree outcome.config = .ok paths) :
    a.runLoaded tree outcome =
      match failure? a.strict (paths.map tree.parse) with
      | some failure => .error failure
      | none => .ok (reportOf outcome (parsed tree paths).length
          (a.foundWith outcome.config (parsed tree paths))) := by
  have concluded := conclude_eq builtin tree outcome paths
  rw [failure?_inspected, report_inspected] at concluded
  exact (runLoaded_of_ok sources).trans concluded

/-- Two runs over the same files come to the same but for what their reports say. -/
theorem runLoaded_map (builtin : ∀ r ∈ a.rules, r ∈ Rule.all)
    (builtin' : ∀ r ∈ a'.rules, r ∈ Rule.all) (strict : a'.strict = a.strict)
    (sources : a'.sources tree outcome'.config = a.sources tree outcome.config) {g : Report → Report}
    (reports : ∀ files : List Parsed,
      reportOf outcome' files.length (a'.foundWith outcome'.config files) =
        g (reportOf outcome files.length (a.foundWith outcome.config files))) :
    a'.runLoaded tree outcome' = (a.runLoaded tree outcome).map g := by
  cases found : a.sources tree outcome.config with
  | error failure =>
      rw [runLoaded, runLoaded, sources, found]
      rfl
  | ok paths =>
      rw [found] at sources
      -- Which file fails the run depends on the files alone, not on rules or settings.
      rw [runLoaded_eq_reportOf builtin found, runLoaded_eq_reportOf builtin' sources, strict]
      cases failure? a.strict (paths.map tree.parse) with
      | some failure => rfl
      | none => exact congrArg Except.ok (reports _)

/-! ## Rules and their settings -/

section Settings

variable {config config' : Config} {rule choice : String} {r s : Rule} {files : List Parsed}

theorem sources_sameButSettings (same : Config.SameButSettings config config') :
    a.sources tree config' = a.sources tree config := by
  rw [sources, same.excludePatterns, sources]

theorem reportOf_sameButSettings (same : Config.SameButSettings outcome.config config') (files : Nat)
    (violations : List Violation) : reportOf { outcome with config := config' } files violations =
      reportOf outcome files violations := by
  rw [reportOf, reportOf, same.failThreshold]
  rfl

theorem name_ne_configRule (builtin : r ∈ Rule.all) : r.name ≠ configRule := by
  rcases Rule.mem_all_iff.mp builtin with rfl | rfl <;> decide

theorem adjust_switchedOff (builtin : r ∈ Rule.all) (v : Violation) :
    r.adjust (config.switchedOff rule) v = r.adjust config v := by
  rw [Rule.adjust, Config.ruleSeverity?_switchedOff (Rule.name_of_mem_all builtin)]
  rfl

theorem adjust_withSeverity (first : r ∈ Rule.all) (second : s ∈ Rule.all)
    {severity : Option Severity} {v : Violation} (own : v.IsOf r r.severity) :
    r.adjust (config.withSeverity s.name severity) v =
      (r.adjust config v).recoloured s.name (severity.getD s.severity) := by
  by_cases same : r.name = s.name
  · have rule : (r.adjust config v).rule = s.name := own.rule.trans same
    rw [Violation.recoloured, if_pos rule, Rule.adjust,
      Config.ruleSeverity?_withSeverity (Rule.name_of_mem_all first), if_pos same, own.severity,
      Rule.eq_of_name_eq first second same]
    rfl
  · have rule : (r.adjust config v).rule ≠ s.name := fun other => same (own.rule.symm.trans other)
    rw [Violation.recoloured, if_neg rule, Rule.adjust,
      Config.ruleSeverity?_withSeverity (Rule.name_of_mem_all first), if_neg same]
    rfl

section Builtin

variable (builtin : ∀ r ∈ a.rules, r ∈ Rule.all)

include builtin

theorem enabledRules_switchedOff : a.enabledRules (config.switchedOff rule) =
    (a.enabledRules config).filter (·.name != rule) := by
  rw [enabledRules, enabledRules, List.filter_filter]
  refine List.filter_congr fun r listed => ?_
  rw [Config.isRuleEnabled_switchedOff (Rule.name_of_mem_all (builtin r listed)), Bool.and_comm]

theorem foundWith_switchedOff : a.foundWith (config.switchedOff rule) files =
    (a.foundWith config files).filter (·.rule != rule) := by
  have listed : ∀ r ∈ a.enabledRules config, r ∈ Rule.all :=
    fun r enabled => mem_enabledRules builtin enabled
  have some : ∀ r ∈ (a.enabledRules config).filter (·.name != rule), r ∈ Rule.all :=
    fun r inside => listed r (List.mem_filter.mp inside).1
  have same : found a.fullRoot (config.switchedOff rule)
      ((a.enabledRules config).filter (·.name != rule)) files =
        (found a.fullRoot config ((a.enabledRules config).filter (·.name != rule)) files).map id := by
    refine found_sameButSettings some (config.sameButSettings_altered rule _) fun r inside v _ => ?_
    exact adjust_switchedOff (some r inside) v
  -- The rules that stay find what they did; what is left is to take out one of them.
  rw [foundWith, enabledRules_switchedOff builtin, same, List.map_id]
  exact found_filter listed (· != rule)

theorem foundWith_withSeverity (second : s ∈ Rule.all) {severity : Option Severity} :
    a.foundWith (config.withSeverity s.name severity) files =
      (a.foundWith config files).map (·.recoloured s.name (severity.getD s.severity)) := by
  have listed : ∀ r ∈ a.enabledRules config, r ∈ Rule.all :=
    fun r enabled => mem_enabledRules builtin enabled
  have rules : a.enabledRules (config.withSeverity s.name severity) = a.enabledRules config := by
    refine List.filter_congr fun r listed => ?_
    exact Config.isRuleEnabled_withSeverity (Rule.name_of_mem_all (builtin r listed))
  rw [foundWith, rules]
  exact found_sameButSettings listed (config.sameButSettings_altered s.name _)
    fun r inside v own => adjust_withSeverity (listed r inside) second own

end Builtin

/-- The name is that of a rule that the text chooses, or what is said about the configuration goes by
it. -/
def isKept (choice : String) (name : String) : Bool :=
  name = configRule || (Rule.chosenBy choice).any (·.name = name)

theorem isKept_name (builtin : r ∈ Rule.all) : isKept choice r.name = Rule.isChosen choice r := by
  rw [Bool.eq_iff_iff, isKept, decide_eq_false (name_ne_configRule builtin), Bool.false_or,
    List.any_eq_true]
  constructor
  · rintro ⟨s, inside, same⟩
    obtain ⟨second, chosen⟩ := Rule.mem_chosenBy.mp inside
    rwa [Rule.eq_of_name_eq builtin second (of_decide_eq_true same).symm]
  · intro chosen
    exact ⟨r, Rule.mem_chosenBy.mpr ⟨builtin, chosen⟩, decide_eq_true rfl⟩

/-- The rules that a text chooses find what goes by their names among what all find. -/
theorem foundWith_chosenBy (a : Analysis) (config : Config) (choice : String)
    (files : List Parsed) : (a.withRules (Rule.chosenBy choice)).foundWith config files =
      ((a.withRules Rule.all).foundWith config files).filter (isKept choice ·.rule) := by
  have listed : ∀ r ∈ (a.withRules Rule.all).enabledRules config, r ∈ Rule.all :=
    fun r enabled => (List.mem_filter.mp enabled).1
  have listed' : ∀ r ∈ (a.withRules (Rule.chosenBy choice)).enabledRules config, r ∈ Rule.all :=
    fun r enabled => mem_enabledRules (Rule.builtin_of_mem_chosenBy choice) enabled
  have chosen : ((a.withRules (Rule.chosenBy choice)).enabledRules config).Perm
      (((a.withRules Rule.all).enabledRules config).filter (isKept choice ·.name)) := by
    refine ((Rule.chosenBy_perm choice).filter _).trans (.of_eq ?_)
    rw [enabledRules, withRules, List.filter_filter, List.filter_filter]
    refine List.filter_congr fun r inside => ?_
    rw [isKept_name inside, Bool.and_comm]
  rw [foundWith, found_perm listed' chosen]
  exact found_filter listed (isKept choice)

end Settings

/-! ## The laws -/

/-- Without the rule a run comes to the same but for the findings of the rule. -/
theorem runLoaded_switchedOff (builtin : ∀ r ∈ a.rules, r ∈ Rule.all) (tree : FileTree)
    (outcome : LoadOutcome) {r : Rule} (listed : r ∈ Rule.all) :
    a.runLoaded tree { outcome with config := outcome.config.switchedOff r.name } =
      (a.runLoaded tree outcome).map (.keeping (· != r.name)) := by
  have same := outcome.config.sameButSettings_altered r.name fun s => { s with enabled := some false }
  refine runLoaded_map builtin builtin rfl (sources_sameButSettings same) fun files => ?_
  have config : (configRule != r.name) = true := bne_iff_ne.mpr (name_ne_configRule listed).symm
  rw [← reportOf_filter (· != r.name) config, ← foundWith_switchedOff builtin]
  exact reportOf_sameButSettings same _ _

/-- With another severity for the rule it comes to the same but for that of its findings. -/
theorem runLoaded_withSeverity (builtin : ∀ r ∈ a.rules, r ∈ Rule.all) (tree : FileTree)
    (outcome : LoadOutcome) {r : Rule} (listed : r ∈ Rule.all) (severity : Option Severity) :
    a.runLoaded tree { outcome with config := outcome.config.withSeverity r.name severity } =
      (a.runLoaded tree outcome).map (.recoloured r.name (severity.getD r.severity)) := by
  have same := outcome.config.sameButSettings_altered r.name fun s => { s with severity }
  refine runLoaded_map builtin builtin rfl (sources_sameButSettings same) fun files => ?_
  rw [← reportOf_recoloured (name_ne_configRule listed), ← foundWith_withSeverity builtin listed]
  exact reportOf_sameButSettings same _ _

/-- A run with the rules that a text chooses comes to what it says of a run with all of them. -/
theorem runLoaded_chosenBy (a : Analysis) (tree : FileTree) (outcome : LoadOutcome)
    (choice : String) : (a.withRules (Rule.chosenBy choice)).runLoaded tree outcome =
      ((a.withRules Rule.all).runLoaded tree outcome).map (.keeping (isKept choice)) := by
  have builtin : ∀ r ∈ (a.withRules Rule.all).rules, r ∈ Rule.all := fun r inside => inside
  have builtin' : ∀ r ∈ (a.withRules (Rule.chosenBy choice)).rules, r ∈ Rule.all :=
    Rule.builtin_of_mem_chosenBy choice
  refine runLoaded_map builtin builtin' rfl rfl fun files => ?_
  rw [foundWith_chosenBy]
  exact reportOf_filter _ (by rw [isKept, decide_eq_true rfl, Bool.true_or]) _ _

/-! ## Schedules -/

section Alike

variable {x y z : Except Failure Report}

theorem Alike.symm (alike : Alike x y) : Alike y x := by
  cases alike with
  | failure f => exact .failure f
  | report diagnostics files failOn => exact .report diagnostics.symm files.symm failOn.symm

theorem Alike.trans (first : Alike x y) (second : Alike y z) : Alike x z := by
  cases first with
  | failure f => exact second
  | report diagnostics files failOn =>
      cases second with
      | report diagnostics' files' failOn' =>
          exact .report (diagnostics.trans diagnostics') (files.trans files')
            (failOn.trans failOn')

theorem Alike.keeping (kept : String → Bool) (alike : Alike x y) :
    Alike (x.map (.keeping kept)) (y.map (.keeping kept)) := by
  cases alike with
  | failure f => exact .failure f
  | @report r r' diagnostics files failOn =>
      refine .report ?_ files failOn
      have keys (l : List Diagnostic) : (l.filter (kept ·.rule)).map Diagnostic.key =
          (l.map Diagnostic.key).filter fun k => kept k.2.2.2.2.2.1 := by
        rw [List.filter_map]
        rfl
      change (r.diagnostics.filter _).map _ = (r'.diagnostics.filter _).map _
      rw [keys, keys, diagnostics]

theorem Alike.recoloured (rule : String) (severity : Severity) (alike : Alike x y) :
    Alike (x.map (.recoloured rule severity)) (y.map (.recoloured rule severity)) := by
  cases alike with
  | failure f => exact .failure f
  | report diagnostics files failOn =>
      exact .report (Rule.map_key_map Diagnostic.key_recoloured diagnostics) files failOn

end Alike

/-- One analysis comes to what another does but for a change of the report: when each looks at one
file after the other, and under whatever schedules as long as nobody cancels. -/
structure ComesTo (tree : FileTree) (a a' : Analysis) (g : Report → Report) : Prop where
  run : a'.run tree false = (a.run tree false).map g
  schedules {workers workers' : Nat} {s s' : State} {result result' : Except Failure Report}
    (reaches : Reaches a tree workers (a.start false) s) (returned : s.stage = .returned result)
    (never : s.cancelled = false) (reaches' : Reaches a' tree workers' (a'.start false) s')
    (returned' : s'.stage = .returned result') (never' : s'.cancelled = false) :
    Alike result' (result.map g)

theorem comesTo (builtin : ∀ r ∈ a.rules, r ∈ Rule.all) (builtin' : ∀ r ∈ a'.rules, r ∈ Rule.all)
    {g : Report → Report}
    (respects : ∀ {x y : Except Failure Report}, Alike x y → Alike (x.map g) (y.map g))
    (run : a'.run tree false = (a.run tree false).map g) : ComesTo tree a a' g where
  run := run
  schedules reaches returned never reaches' returned' never' := by
    have alike' := reaches'.alike builtin' returned' never'
    rw [run] at alike'
    exact alike'.trans (respects (reaches.alike builtin returned never)).symm

/-! ## Isolation -/

/-- The rules there are have their say each by itself. -/
structure Isolation (a : Analysis) (tree : FileTree) : Prop where
  /-- Where a rule is switched off its findings are gone, and all else is as it was and where it
  was. -/
  switchedOff (outcome : LoadOutcome) : ∀ r ∈ Rule.all,
    a.runLoaded tree { outcome with config := outcome.config.switchedOff r.name } =
      (a.runLoaded tree outcome).map (.keeping (· != r.name))
  /-- Another severity for a rule is that of its findings, and all else is as it was. Without one
  they have that of the rule. -/
  withSeverity (outcome : LoadOutcome) : ∀ r ∈ Rule.all, ∀ severity : Option Severity,
    a.runLoaded tree { outcome with config := outcome.config.withSeverity r.name severity } =
      (a.runLoaded tree outcome).map (.recoloured r.name (severity.getD r.severity))
  /-- Neither is an issue, nor does it hide one. -/
  issues (config : Config) (rule : String) (f : RuleSettings → RuleSettings) :
    (config.altered rule f).validate = config.validate
  /-- A text chooses the rules that one of its entries names, each of them once. -/
  chosen (choice : String) : (Rule.chosenBy choice).Nodup ∧
    ∀ r, r ∈ Rule.chosenBy choice ↔ r ∈ Rule.all ∧
      ∃ entry ∈ Text.cut ',' choice, Text.trim entry = r.name ∨ Text.trim entry = r.code
  /-- However those are listed that are left to choose from, it chooses the same. -/
  relisted (choice : String) {rules : List Rule}
    (chooses : Rule.Chooses ((Text.cut ',' choice).map Text.trim) Rule.all rules) :
    rules = Rule.chosenBy choice
  /-- The rules that it chooses find what goes by their names among what all find. -/
  choosing (outcome : LoadOutcome) (choice : String) :
    (a.withRules (Rule.chosenBy choice)).runLoaded tree outcome =
      ((a.withRules Rule.all).runLoaded tree outcome).map (.keeping (isKept choice))
  /-- So it is under every schedule where a document switches off a rule besides. -/
  documentOff {document : Document} {r : Rule} (listed : r ∈ Rule.all)
    (loads : (a.withDocument document).outcome tree =
      { a.outcome tree with config := (a.outcome tree).config.switchedOff r.name }) :
    ComesTo tree a (a.withDocument document) (.keeping (· != r.name))
  /-- So it is where a document gives it another severity. -/
  documentSeverity {document : Document} {r : Rule} (listed : r ∈ Rule.all)
    {severity : Option Severity} (loads : (a.withDocument document).outcome tree =
      { a.outcome tree with config := (a.outcome tree).config.withSeverity r.name severity }) :
    ComesTo tree a (a.withDocument document) (.recoloured r.name (severity.getD r.severity))
  /-- So it is where a command line chooses rules. -/
  commandLine (e : CommandLine.Environment) (project : Path) (options : CommandLine.CheckOptions)
    (document : Document) (choice : String) : ComesTo tree
      (CommandLine.analysis e project { options with rules := none } document)
      (CommandLine.analysis e project { options with rules := some choice } document)
      (.keeping (isKept choice))

/-- With the rules there are, what each of them finds is its own. -/
theorem run_isolates (a : Analysis) (tree : FileTree) (builtin : ∀ r ∈ a.rules, r ∈ Rule.all) :
    Isolation a tree where
  switchedOff outcome r listed := runLoaded_switchedOff builtin tree outcome listed
  withSeverity outcome r listed severity :=
    runLoaded_withSeverity builtin tree outcome listed severity
  issues config rule f := (config.sameButSettings_altered rule f).validate
  chosen choice := by
    refine ⟨Rule.nodup_chosenBy choice, fun r => ?_⟩
    rw [Rule.mem_chosenBy, Rule.isChosen, List.any_eq_true]
    simp only [Rule.goesBy_iff]
  relisted choice rules chooses :=
    chooses.unique Rule.namedApart_all .rfl (Rule.chooses_choose _ _)
  choosing outcome choice := runLoaded_chosenBy a tree outcome choice
  documentOff {document r} listed loads := by
    have builtin' : ∀ r ∈ (a.withDocument document).rules, r ∈ Rule.all := builtin
    refine comesTo builtin builtin' (Alike.keeping _) ?_
    rw [run_eq_runLoaded, loads, run_eq_runLoaded]
    exact runLoaded_switchedOff builtin tree (a.outcome tree) listed
  documentSeverity {document r} listed severity loads := by
    have builtin' : ∀ r ∈ (a.withDocument document).rules, r ∈ Rule.all := builtin
    refine comesTo builtin builtin' (Alike.recoloured _ _) ?_
    rw [run_eq_runLoaded, loads, run_eq_runLoaded]
    exact runLoaded_withSeverity builtin tree (a.outcome tree) listed severity
  commandLine e project options document choice := by
    refine comesTo (fun r inside => inside) (Rule.builtin_of_mem_chosenBy choice) (Alike.keeping _) ?_
    exact runLoaded_chosenBy (CommandLine.analysis e project options document) tree _ choice

/-- All rules with a document of this content. -/
def configuredBy (content : String) : Analysis :=
  allRules.withDocument (.text ⟨"lint.xml"⟩ content)

/-- All rules, where lines of nine columns are too long. -/
def shortLines : Analysis :=
  configuredBy "<config><LongLine maxLineLength='8'/></config>"

/-- What its document says. -/
def eightColumns : Config where
  longLine := some ⟨{}, some "8", none, some ⟨1, 9⟩⟩
  position := some ⟨1, 1⟩

theorem outcome_shortLines :
    shortLines.outcome oneFile = { path := some ⟨"lint.xml"⟩, config := eightColumns } := by
  decide +kernel

theorem found_eightColumns :
    found ⟨"/p"⟩ eightColumns Rule.all (parsed oneFile [⟨"/p/a.rs"⟩]) =
      [LongLine.violation ⟨"/p/a.rs"⟩ 1 9 8,
        UnusedFunction.violation ⟨"f", ⟨⟨"/p/a.rs"⟩, 1, 4⟩⟩] := by
  have inFile : foundInFiles ⟨"/p"⟩ eightColumns Rule.all (parsed oneFile [⟨"/p/a.rs"⟩]) =
      [LongLine.violation ⟨"/p/a.rs"⟩ 1 9 8] := by decide +kernel
  have defined : (bankBy ⟨"/p"⟩ eightColumns Rule.all (parsed oneFile [⟨"/p/a.rs"⟩])).symbols.toList =
      [⟨"f", ⟨⟨"/p/a.rs"⟩, 1, 4⟩⟩] := by decide +kernel
  have unused : UnusedFunction.isUsed
      (bankBy ⟨"/p"⟩ eightColumns Rule.all (parsed oneFile [⟨"/p/a.rs"⟩])) "f" = false := by
    decide +kernel
  have atEnd : UnusedFunction.unused eightColumns
      (bankBy ⟨"/p"⟩ eightColumns Rule.all (parsed oneFile [⟨"/p/a.rs"⟩])) =
        [⟨"f", ⟨⟨"/p/a.rs"⟩, 1, 4⟩⟩] := by
    rw [UnusedFunction.unused, UnusedFunction.unusedAmong, defined, List.filter_singleton, unused]
    exact List.mergeSort_singleton _
  rw [found, inFile, Rule.finishAll_all, atEnd]
  rfl

def neverUsed : Diagnostic :=
  ⟨some ⟨"/p/a.rs"⟩, 0, 3, .warning, "PL002", "unused-function", "function `f` is never used"⟩

def tooLong (severity : Severity) : Diagnostic :=
  ⟨some ⟨"/p/a.rs"⟩, 0, 8, severity, "PL001", "long-line", "line is 9 columns wide, maximum is 8"⟩

/-- The function stands before the end of the line, whichever is found first. -/
theorem findings_shortLines : findings [LongLine.violation ⟨"/p/a.rs"⟩ 1 9 8,
    UnusedFunction.violation ⟨"f", ⟨⟨"/p/a.rs"⟩, 1, 4⟩⟩] = [neverUsed, tooLong .warning] := by
  have later : Diagnostic.le (.ofViolation (LongLine.violation ⟨"/p/a.rs"⟩ 1 9 8))
      (.ofViolation (UnusedFunction.violation ⟨"f", ⟨⟨"/p/a.rs"⟩, 1, 4⟩⟩)) = false := by
    decide +kernel
  have sorted : findings [LongLine.violation ⟨"/p/a.rs"⟩ 1 9 8,
      UnusedFunction.violation ⟨"f", ⟨⟨"/p/a.rs"⟩, 1, 4⟩⟩] =
        [.ofViolation (UnusedFunction.violation ⟨"f", ⟨⟨"/p/a.rs"⟩, 1, 4⟩⟩),
          .ofViolation (LongLine.violation ⟨"/p/a.rs"⟩ 1 9 8)] := by
    simp [findings, List.mergeSort, List.MergeSort.Internal.splitInTwo, later]
  rw [sorted]
  rfl

theorem run_eightColumns : shortLines.run oneFile false =
    .ok { diagnostics := [neverUsed, tooLong .warning], filesChecked := 1 } := by
  have sources : shortLines.sources oneFile (shortLines.outcome oneFile).config =
      .ok [⟨"/p/a.rs"⟩] := by
    rw [outcome_shortLines]
    cbv
  have parses : failure? shortLines.strict ([(⟨"/p/a.rs"⟩ : Path)].map oneFile.parse) = none := by
    refine failure?_false_parse_eq_none_iff.mpr fun path listed => ?_
    obtain rfl := List.mem_singleton.mp listed
    exact ⟨"fn f() {}", by decide +kernel⟩
  have one : (parsed oneFile [⟨"/p/a.rs"⟩]).length = 1 := by decide +kernel
  have root : shortLines.fullRoot = ⟨"/p"⟩ := by cbv
  have rules : shortLines.enabledRules eightColumns = Rule.all := rfl
  rw [run_eq_runLoaded, runLoaded_eq_reportOf (fun _ inside => inside) sources, parses]
  dsimp only
  rw [one, outcome_shortLines, foundWith, root, rules, found_eightColumns, reportOf,
    findings_shortLines]
  rfl

/-- The function stays where it is in the report when the line goes, or is an error from then
on. -/
theorem run_shortLines : (∀ r ∈ shortLines.rules, r ∈ Rule.all) ∧ Isolation shortLines oneFile ∧
    shortLines.run oneFile false =
      .ok { diagnostics := [neverUsed, tooLong .warning], filesChecked := 1 } ∧
    (configuredBy "<config><LongLine maxLineLength='8' enabled='false'/></config>").run oneFile
      false = .ok { diagnostics := [neverUsed], filesChecked := 1 } ∧
    (configuredBy "<config><LongLine maxLineLength='8' severity='error'/></config>").run oneFile
      false = .ok { diagnostics := [neverUsed, tooLong .error], filesChecked := 1 } ∧
    (shortLines.withRules (Rule.chosenBy " PL002 ,nope,unused-function")).run oneFile false =
      .ok { diagnostics := [neverUsed], filesChecked := 1 } := by
  have isolates := run_isolates shortLines oneFile fun r inside => inside
  have line : LongLine.rule ∈ Rule.all := List.mem_cons_self
  have off : (shortLines.withDocument (.text ⟨"lint.xml"⟩
      "<config><LongLine maxLineLength='8' enabled='false'/></config>")).outcome oneFile =
        { shortLines.outcome oneFile with
          config := (shortLines.outcome oneFile).config.switchedOff LongLine.rule.name } := by
    rw [outcome_shortLines]
    decide +kernel
  have worse : (shortLines.withDocument (.text ⟨"lint.xml"⟩
      "<config><LongLine maxLineLength='8' severity='error'/></config>")).outcome oneFile =
        { shortLines.outcome oneFile with
          config := (shortLines.outcome oneFile).config.withSeverity LongLine.rule.name
            (some .error) } := by
    rw [outcome_shortLines]
    decide +kernel
  have gone : Report.keeping (· != LongLine.rule.name) ⟨[neverUsed, tooLong .warning], 1, .error⟩ =
      { diagnostics := [neverUsed], filesChecked := 1 } := by decide +kernel
  have turned : Report.recoloured LongLine.rule.name .error
      ⟨[neverUsed, tooLong .warning], 1, .error⟩ =
        { diagnostics := [neverUsed, tooLong .error], filesChecked := 1 } := by decide +kernel
  have kept : Report.keeping (isKept " PL002 ,nope,unused-function")
      ⟨[neverUsed, tooLong .warning], 1, .error⟩ =
        { diagnostics := [neverUsed], filesChecked := 1 } := by decide +kernel
  refine ⟨fun r inside => inside, isolates, run_eightColumns, ?_, ?_, ?_⟩
  · refine (isolates.documentOff line off).run.trans ?_
    rw [run_eightColumns]
    exact congrArg Except.ok gone
  · refine (isolates.documentSeverity line worse).run.trans ?_
    rw [run_eightColumns]
    exact congrArg Except.ok turned
  · have all : (shortLines.withRules Rule.all).runLoaded oneFile (shortLines.outcome oneFile) =
        shortLines.run oneFile false := rfl
    refine (isolates.choosing (shortLines.outcome oneFile) _).trans ?_
    rw [all, run_eightColumns]
    exact congrArg Except.ok kept

end Analysis

end SourceLint
