import SourceLint.Proofs.Analysis.Inspections

/-! # Runs with a configuration

What a run does once its configuration is there. Runs that share nothing but what becomes of
the configuration can so be compared, also where no document spells one of the two.
-/

namespace SourceLint.Analysis

/-- The outcome of loading the configuration. -/
def outcome (a : Analysis) (tree : FileTree) : LoadOutcome :=
  a.load tree a.document

/-- What a run makes of the files at some paths, with some rules. -/
def conclude (a : Analysis) (tree : FileTree) (outcome : LoadOutcome) (rules : List Rule)
    (paths : List Path) : Except Failure Report :=
  let inspections := paths.map (inspect tree a.fullRoot outcome.config rules)
  if isGivenUp inspections then .error .cancelled
  else
    match failure? a.strict inspections with
    | some failure => .error failure
    | none => .ok (report outcome 1 rules (inspections.filterMap (·.toOption)))

/-- A run whose configuration has been loaded. -/
def runLoaded (a : Analysis) (tree : FileTree) (outcome : LoadOutcome) : Except Failure Report := do
  a.conclude tree outcome (a.enabledRules outcome.config) (← a.sources tree outcome.config)

/-- A run with this configuration, of which there is nothing to say. -/
def runWith (a : Analysis) (tree : FileTree) (config : Config) : Except Failure Report :=
  a.runLoaded tree { config }

variable (a : Analysis) (tree : FileTree)

theorem run_eq_runLoaded : a.run tree false = a.runLoaded tree (a.outcome tree) :=
  rfl

variable {a tree} in
theorem runLoaded_of_ok {outcome : LoadOutcome} {paths : List Path}
    (sources : a.sources tree outcome.config = .ok paths) :
    a.runLoaded tree outcome = a.conclude tree outcome (a.enabledRules outcome.config) paths := by
  rw [runLoaded, sources]
  rfl

variable {a tree} in
theorem runWith_of_ok {config : Config} {paths : List Path}
    (sources : a.sources tree config = .ok paths) :
    a.runWith tree config = a.conclude tree { config } (a.enabledRules config) paths := by
  rw [runWith, runLoaded, sources]
  rfl

variable {a} in
/-- With the rules there are no run is given up: it fails with a file, or reports on all of them. -/
theorem conclude_eq (builtin : ∀ r ∈ a.rules, r ∈ Rule.all) (tree : FileTree)
    (outcome : LoadOutcome) (paths : List Path) :
    a.conclude tree outcome (a.enabledRules outcome.config) paths =
      match failure? a.strict (paths.map (inspect tree a.fullRoot outcome.config
        (a.enabledRules outcome.config))) with
      | some failure => .error failure
      | none => .ok (report outcome 1 (a.enabledRules outcome.config) (successes (paths.map
          (inspect tree a.fullRoot outcome.config (a.enabledRules outcome.config))))) := by
  rw [conclude, isGivenUp_eq_false builtin, if_neg Bool.false_ne_true]
  rfl

variable {a tree} in
theorem conclude_of_fine (builtin : ∀ r ∈ a.rules, r ∈ Rule.all) (outcome : LoadOutcome)
    {paths : List Path} (fine : failure? a.strict (paths.map (inspect tree a.fullRoot outcome.config
      (a.enabledRules outcome.config))) = none) :
    a.conclude tree outcome (a.enabledRules outcome.config) paths =
      .ok (report outcome 1 (a.enabledRules outcome.config) (successes (paths.map
        (inspect tree a.fullRoot outcome.config (a.enabledRules outcome.config))))) := by
  rw [conclude_eq builtin, fine]

variable {a tree} in
theorem conclude_of_failure (builtin : ∀ r ∈ a.rules, r ∈ Rule.all) (outcome : LoadOutcome)
    {paths : List Path} {failure : Failure}
    (fails : failure? a.strict (paths.map (inspect tree a.fullRoot outcome.config
      (a.enabledRules outcome.config))) = some failure) :
    a.conclude tree outcome (a.enabledRules outcome.config) paths = .error failure := by
  rw [conclude_eq builtin, fails]

theorem enabledRules_enabledRules (config : Config) :
    ({ a with rules := a.enabledRules config } : Analysis).enabledRules config =
      a.enabledRules config := by
  simp [enabledRules]

/-- Rules that are switched off might as well not be there. -/
theorem run_enabledRules (cancelled : Bool) :
    ({ a with rules := a.enabledRules (a.outcome tree).config } : Analysis).run tree cancelled =
      a.run tree cancelled := by
  cases cancelled with
  | true => rfl
  | false =>
      have rules := enabledRules_enabledRules a (a.outcome tree).config
      exact congrArg (fun rules => a.sources tree (a.outcome tree).config >>=
        a.conclude tree (a.outcome tree) rules) rules

end SourceLint.Analysis
