import SourceLint.Proofs.Analysis.Configured

/-! # What runs return

The result of a run that looks at one file after the other and is never cancelled, and when
another result is the same. Paths are the same when their components are: a file that
goes by two paths is found under both, and which of the two a function in it is reported
under is left to the order of the run.
-/

namespace SourceLint

namespace Diagnostic

/-- A diagnostic, but for the spelling of its path. -/
abbrev Key := Option (List Path.Component) × Nat × Nat × Severity × String × String × String

/-- The diagnostic, but for the spelling of its path. -/
def key (d : Diagnostic) : Key :=
  (d.path.map Path.components, d.line, d.column, d.severity, d.code, d.rule, d.message)

/-- The order of places. -/
def comparePlaces : Key → Key → Ordering :=
  compareLex (compareOn fun k : Key => k.1)
    (compareLex (compareOn fun k : Key => k.2.1) (compareOn fun k : Key => k.2.2.1))

theorem key_ofViolation {v w : Violation} (same : v.key = w.key) :
    (ofViolation v).key = (ofViolation w).key := by
  simp only [Violation.key, Location.key, Prod.mk.injEq] at same
  obtain ⟨code, rule, severity, ⟨file, line, column⟩, message⟩ := same
  simp only [key, ofViolation, Option.map_some, code, rule, severity, file, line, column, message]

theorem compare_components (p q : Option Path) :
    compare p q = compare (p.map Path.components) (q.map Path.components) := by
  cases p <;> cases q <;> rfl

theorem le_key (a b : Diagnostic) : le a b = (comparePlaces a.key b.key).isLE := by
  change ((compare a.path b.path).then _).isLE = _
  rw [compare_components]
  rfl

end Diagnostic

namespace Analysis

/-- Findings are put in order by what they are compared by. -/
theorem findings_keys {violations violations' : List Violation}
    (same : violations.map Violation.key = violations'.map Violation.key) :
    (findings violations).map Diagnostic.key = (findings violations').map Diagnostic.key := by
  unfold findings
  rw [List.map_mergeSort (s := fun k l => (Diagnostic.comparePlaces k l).isLE)
      fun a _ b _ => Diagnostic.le_key a b,
    List.map_mergeSort (s := fun k l => (Diagnostic.comparePlaces k l).isLE)
      fun a _ b _ => Diagnostic.le_key a b,
    Rule.map_key_map Diagnostic.key_ofViolation same]

/-- The results are the same, but for the spelling of paths in diagnostics. -/
inductive Alike : Except Failure Report → Except Failure Report → Prop where
  | failure (f : Failure) : Alike (.error f) (.error f)
  | report {r r' : Report}
      (diagnostics : r.diagnostics.map Diagnostic.key = r'.diagnostics.map Diagnostic.key)
      (filesChecked : r.filesChecked = r'.filesChecked) (failOn : r.failOn = r'.failOn) :
      Alike (.ok r) (.ok r')

/-- No two of the paths are the same path spelled differently. -/
def SpelledOnce (paths : List Path) : Prop :=
  ∀ p ∈ paths, ∀ q ∈ paths, p.components = q.components → p = q

/-- Violations in files that go by one path are equal when they compare equal. -/
theorem SpelledOnce.violations_eq {paths : List Path} (once : SpelledOnce paths)
    {found found' : List Violation} (same : found.map Violation.key = found'.map Violation.key)
    (inside : ∀ v ∈ found, v.location.file ∈ paths)
    (inside' : ∀ v ∈ found', v.location.file ∈ paths) : found = found' := by
  induction found generalizing found' with
  | nil => exact (List.map_eq_nil_iff.mp same.symm).symm
  | cons v rest ih =>
      obtain ⟨w, rest', rfl, head, tail⟩ := List.map_eq_cons_iff.mp same.symm
      simp only [Violation.key, Location.key, Prod.mk.injEq] at head
      obtain ⟨code, rule, severity, ⟨file, line, column⟩, message⟩ := head
      have path : w.location.file = v.location.file :=
        once _ (inside' w List.mem_cons_self) _ (inside v List.mem_cons_self) file
      have first : v = w := by
        obtain ⟨_, _, _, ⟨_, _, _⟩, _⟩ := v
        obtain ⟨_, _, _, ⟨_, _, _⟩, _⟩ := w
        simp_all
      rw [first, ih tail.symm (fun u member => inside u (List.mem_cons_of_mem _ member))
        fun u member => inside' u (List.mem_cons_of_mem _ member)]

/-- The results of the files, one after the other. -/
def gathered (a : Analysis) (tree : FileTree) (paths : List Path) :
    List (Except Failure (List Violation)) :=
  paths.map fun path => (a.said tree (a.outcome tree).config path).map fun all =>
    all.flatMap (·.violations)

variable {a : Analysis} {tree : FileTree} {paths : List Path}

theorem gathered_eq (a : Analysis) (tree : FileTree) (paths : List Path) :
    a.gathered tree paths = (paths.map (a.said tree (a.outcome tree).config)).map
      (·.map fun all => all.flatMap (·.violations)) := by
  rw [List.map_map]
  rfl

theorem run_of_error {failure : Failure}
    (sources : a.sources tree (a.outcome tree).config = .error failure) :
    a.run tree false = .error failure := by
  change (a.sources tree (a.outcome tree).config >>= _) = _
  rw [sources]
  rfl

theorem failure?_inspect (a : Analysis) (tree : FileTree) (paths : List Path) :
    failure? a.strict (paths.map (inspect tree a.fullRoot (a.outcome tree).config
      (a.enabledRules (a.outcome tree).config))) = failure? a.strict (a.gathered tree paths) := by
  rw [map_inspect, failure?_map, gathered_eq, failure?_map]

theorem run_of_ok (builtin : ∀ r ∈ a.rules, r ∈ Rule.all)
    (sources : a.sources tree (a.outcome tree).config = .ok paths) :
    a.run tree false =
      match failure? a.strict (a.gathered tree paths) with
      | some failure => .error failure
      | none => .ok (report (a.outcome tree) 1 (a.enabledRules (a.outcome tree).config)
          (successes (paths.map (inspect tree a.fullRoot (a.outcome tree).config
            (a.enabledRules (a.outcome tree).config))))) := by
  have concluded := conclude_eq builtin tree (a.outcome tree) paths
  rw [failure?_inspect] at concluded
  exact (runLoaded_of_ok sources).trans concluded

/-- What is gathered file by file is what a run over one file after the other puts together. -/
theorem successes_inspect (a : Analysis) (tree : FileTree) (paths : List Path) :
    (successes (paths.map (inspect tree a.fullRoot (a.outcome tree).config
      (a.enabledRules (a.outcome tree).config)))).map (·.violations) =
        successes (a.gathered tree paths) := by
  rw [map_inspect, successes_map, gathered_eq, successes_map, List.map_map]
  exact List.map_congr_left fun all _ => Checked.violations_join all

/-- The result for files of which none fails the run, with what the rules say at the end. -/
def resultWith (a : Analysis) (tree : FileTree) (paths : List Path) (ended : List Violation) :
    Except Failure Report :=
  .ok (reportOf (a.outcome tree) (successes (a.gathered tree paths)).length
    ((successes (a.gathered tree paths)).flatten ++ ended))

theorem run_of_fine (builtin : ∀ r ∈ a.rules, r ∈ Rule.all)
    (sources : a.sources tree (a.outcome tree).config = .ok paths)
    (fine : failure? a.strict (a.gathered tree paths) = none) :
    ∃ run : Run, run.config = (a.outcome tree).config ∧
      run.bank.Holds (Defines a tree (a.outcome tree).config paths)
        (Uses a tree (a.outcome tree).config paths) ∧
      a.run tree false = a.resultWith tree paths
        (Rule.finishAll run (a.enabledRules (a.outcome tree).config)) := by
  refine ⟨⟨_, _, 1⟩, rfl, holds_bankOf a tree (a.outcome tree).config paths, ?_⟩
  rw [run_of_ok builtin sources, fine, resultWith, ← successes_inspect, List.length_map,
    ← List.flatMap_def]
  rfl

section Ending

variable (builtin : ∀ r ∈ a.rules, r ∈ Rule.all) {run : Run}
  (holds : run.bank.Holds (Defines a tree (a.outcome tree).config paths)
    (Uses a tree (a.outcome tree).config paths))
  {ended : List Violation} (ends : Rule.EndsAll run (a.enabledRules (a.outcome tree).config) ended)

include builtin holds ends

theorem file_mem_of_endsAll : ∀ v ∈ ended, v.location.file ∈ paths := by
  intro v member
  obtain ⟨m, defined, place⟩ := ends.location (fun r => mem_enabledRules builtin) holds member
  exact place ▸ defined.file_mem builtin

variable (sources : a.sources tree (a.outcome tree).config = .ok paths)
  (fine : failure? a.strict (a.gathered tree paths) = none)
  (config : run.config = (a.outcome tree).config)

include sources fine config

theorem exists_ended : ∃ ended', a.run tree false = a.resultWith tree paths ended' ∧
    ended.map Violation.key = ended'.map Violation.key ∧
    ∀ v ∈ ended', v.location.file ∈ paths := by
  obtain ⟨run', config', holds', result⟩ := run_of_fine builtin sources fine
  have ends' := Rule.endsAll_finishAll run' (a.enabledRules (a.outcome tree).config)
  refine ⟨_, result, ?_, file_mem_of_endsAll builtin holds' ends'⟩
  exact ends.keys_eq (fun r => mem_enabledRules builtin) (config.trans config'.symm) holds holds'
    (fun m n first second => first.name_eq builtin second) ends'

/-- A bank that holds what the files define and use leads to the same report. -/
theorem alike_run : Alike (a.resultWith tree paths ended) (a.run tree false) := by
  obtain ⟨ended', result, same, _⟩ := exists_ended builtin holds ends sources fine config
  have violations : ((successes (a.gathered tree paths)).flatten ++ ended).map Violation.key =
      ((successes (a.gathered tree paths)).flatten ++ ended').map Violation.key := by
    rw [List.map_append, List.map_append, same]
  rw [result]
  refine .report ?_ rfl rfl
  change ((a.outcome tree).diagnostics ++ _).map Diagnostic.key =
    ((a.outcome tree).diagnostics ++ _).map Diagnostic.key
  rw [List.map_append, List.map_append, findings_keys violations]

/-- Where every file goes by one path, the report is the same to the letter. -/
theorem eq_run (once : SpelledOnce paths) : a.resultWith tree paths ended = a.run tree false := by
  obtain ⟨ended', result, same, inside⟩ := exists_ended builtin holds ends sources fine config
  rw [result, once.violations_eq same (file_mem_of_endsAll builtin holds ends) inside]

end Ending

end Analysis

end SourceLint
