import SourceLint.Diagnostic
import SourceLint.Proofs.Rule.Ending

/-! # Whose findings are whose

What a rule finds carries the name and the code of the rule, and the severity of the rule
until the configuration has its say. This holds of what it says about files and of what it
says at the end.
-/

namespace SourceLint

/-- The violation is one that the rule reports, at the severity given. -/
structure Violation.IsOf (r : Rule) (severity : Severity) (v : Violation) : Prop where
  rule : v.rule = r.name
  code : v.code = r.code
  severity : v.severity = severity

theorem LongLine.isOf_violationsFrom (file : Path) (max tabWidth : Nat) {line : Nat}
    {lines : List (List Char)} :
    ∀ v ∈ violationsFrom file max tabWidth line lines, v.IsOf LongLine.rule .warning := by
  induction lines generalizing line with
  | nil =>
      intro v member
      cases member
  | cons cs rest ih =>
      intro v member
      rw [violationsFrom] at member
      split at member
      · rcases List.mem_cons.mp member with rfl | member
        · exact ⟨rfl, rfl, rfl⟩
        · exact ih v member
      · exact ih v member

theorem LongLine.checkAdjusted_rule {W : Source.Name → Prop} (config : Config) (file : SourceFile)
    (tree : Source.Tree W) : Rule.checkAdjusted config file tree rule =
      { violations := (violations config file).map (rule.adjust config) } :=
  rfl

namespace Rule

variable {r : Rule} {config : Config}

/-- What is said about the configuration goes by a code of its own. -/
theorem code_ne_configCode (builtin : r ∈ all) : r.code ≠ configCode := by
  rcases mem_all_iff.mp builtin with rfl | rfl <;> decide

theorem isOf_check (builtin : r ∈ all) {W : Source.Name → Prop} (config : Config)
    (file : SourceFile) (tree : Source.Tree W) :
    ∀ v ∈ (r.check config file tree).violations, v.IsOf r r.severity := by
  rcases mem_all_iff.mp builtin with rfl | rfl
  · exact LongLine.isOf_violationsFrom file.path config.maxLineLength config.tabWidth
  · intro v member
    cases member

theorem Ends.isOf {run : Run} {found : List Violation} (builtin : r ∈ all)
    (ends : Ends run r found) : ∀ v ∈ found, v.IsOf r r.severity := by
  intro v member
  rcases mem_all_iff.mp builtin with rfl | rfl
  · rcases ends.of_mem_all List.mem_cons_self with ⟨_, rfl⟩ | ⟨name, _⟩
    · cases member
    · exact absurd name (by decide)
  · rcases ends.of_mem_all (by simp [all]) with ⟨name, _⟩ | ⟨_, symbols, _, rfl⟩
    · exact absurd name (by decide)
    · obtain ⟨m, _, rfl⟩ := List.mem_map.mp member
      exact ⟨rfl, rfl, rfl⟩

/-- What is said about a file depends on numbers and on one choice of the configuration. -/
theorem check_congr {config' : Config} (builtin : r ∈ all)
    (maxLineLength : config'.maxLineLength = config.maxLineLength)
    (tabWidth : config'.tabWidth = config.tabWidth)
    (includesPublic : config'.includesPublic = config.includesPublic) {W : Source.Name → Prop}
    (file : SourceFile) (tree : Source.Tree W) :
    r.check config' file tree = r.check config file tree := by
  rcases mem_all_iff.mp builtin with rfl | rfl
  · change ({ violations := LongLine.violations config' file } : Checked) = _
    rw [LongLine.violations, maxLineLength, tabWidth]
    rfl
  · change ({ facts := UnusedFunction.factsOfFile config' file tree } : Checked) = _
    rw [UnusedFunction.factsOfFile, includesPublic]
    rfl

theorem finish_congr {config' : Config} (builtin : r ∈ all)
    (excludes : config'.functionExcludes = config.functionExcludes) (bank : Bank) (loads : Nat) :
    r.finish ⟨config', bank, loads⟩ = r.finish ⟨config, bank, loads⟩ := by
  rcases mem_all_iff.mp builtin with rfl | rfl
  · rfl
  · change (UnusedFunction.unusedAmong config' bank _).map _ = _
    rw [UnusedFunction.unusedAmong, excludes]
    rfl

/-- The configuration decides on the severity where it sets one. -/
theorem isOf_adjust {v : Violation} (own : v.IsOf r r.severity) :
    (r.adjust config v).IsOf r ((config.ruleSeverity? r.name).getD r.severity) where
  rule := own.rule
  code := own.code
  severity := by
    rw [← own.severity]
    rfl

theorem EndsAll.isOf {run : Run} {rules : List Rule} {found : List Violation}
    (builtin : ∀ r ∈ rules, r ∈ all) (ends : EndsAll run rules found) :
    ∀ v ∈ found, ∃ r ∈ rules,
      v.IsOf r ((run.config.ruleSeverity? r.name).getD r.severity) := by
  induction ends with
  | nil =>
      intro v member
      cases member
  | @cons r rules found others ends _ ih =>
      intro v member
      rcases List.mem_append.mp member with first | other
      · obtain ⟨w, said, rfl⟩ := List.mem_map.mp first
        exact ⟨r, List.mem_cons_self, isOf_adjust (ends.isOf (builtin r List.mem_cons_self) w said)⟩
      · obtain ⟨s, inside, own⟩ :=
          ih (fun r inside => builtin r (List.mem_cons_of_mem _ inside)) v other
        exact ⟨s, List.mem_cons_of_mem _ inside, own⟩

end Rule

end SourceLint
