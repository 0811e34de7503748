import Mathlib.Data.List.Perm.Subperm
import SourceLint.Proofs.Config.Sensible

/-! # What a load has to report

A load that fails leaves the default configuration and one diagnostic. A load that does not
fail has the issues of its configuration, and so a diagnostic for each setting in it that
makes no sense.
-/

namespace SourceLint

theorem Config.validate_default : ({} : Config).validate = [] :=
  List.mergeSort_nil

theorem LoadOutcome.ofText_cases (path : Path) (content : String) :
    (∃ failure, ofText path content = failed path failure) ∨
      ∃ config : Config, ofText path content =
        { config, path := some path, issues := config.validate } := by
  rw [ofText]
  split
  · exact .inr ⟨{}, by rw [Config.validate_default]⟩
  · split
    · exact .inl ⟨_, rfl⟩
    · split
      · exact .inl ⟨_, rfl⟩
      · exact .inr ⟨_, rfl⟩

/-- A load fails, or it leaves a configuration with its issues. -/
theorem Document.load_cases (read : Path → Except ReadError String) (d : Document) :
    (∃ path failure, d.path? = some path ∧ d.load read = .failed path failure) ∨
      ∃ config : Config, d.load read = { config, path := d.path?, issues := config.validate } := by
  have text (path : Path) (content : String) (named : d.path? = some path)
      (loaded : d.load read = .ofText path content) :
      (∃ path failure, d.path? = some path ∧ d.load read = .failed path failure) ∨
        ∃ config : Config, d.load read =
          { config, path := d.path?, issues := config.validate } := by
    rw [loaded, named]
    rcases LoadOutcome.ofText_cases path content with ⟨failure, failed⟩ | bound
    · exact .inl ⟨path, failure, rfl, failed⟩
    · exact .inr bound
  cases d with
  | absent => exact .inr ⟨{}, by rw [Config.validate_default]; rfl⟩
  | text path content => exact text path content rfl rfl
  | file path =>
      cases content : read path with
      | error e => exact .inl ⟨path, .unreadable path e, rfl, by rw [load, content]⟩
      | ok content' => exact text path content' rfl (by rw [load, content])

namespace LoadOutcome

theorem code_of_mem_diagnostics {o : LoadOutcome} : ∀ d ∈ o.diagnostics, d.code = configCode := by
  intro d member
  have code (path : Option Path) (at_ : Option Position) (message : String) :
      (Diagnostic.ofConfig path at_ message).code = configCode := by
    rw [Diagnostic.ofConfig]
    split <;> rfl
  rw [diagnostics] at member
  split at member
  · cases List.mem_singleton.mp member
    exact code _ _ _
  · obtain ⟨issue, _, rfl⟩ := List.mem_map.mp member
    exact code _ _ _

end LoadOutcome

/-- Where a diagnostic about a document stands. -/
def Diagnostic.place (d : Diagnostic) : Option Path × Nat × Nat :=
  (d.path, d.line, d.column)

/-- Where a diagnostic stands that is about a position in the document at a path. Positions count
from one, diagnostics from zero, and what has no position stands at the start. -/
def placeIn (path : Option Path) (at_ : Option Position) : Option Path × Nat × Nat :=
  (path, (at_.getD .start).line - 1, (at_.getD .start).column - 1)

/-- Each setting that makes no sense has a diagnostic of its own, at its position. -/
theorem Document.removed_reported (read : Path → Except ReadError String) (d : Document)
    (loaded : (d.load read).failure = none) :
    ((d.load read).config.removed.map (placeIn d.path?)).Subperm
      ((d.load read).diagnostics.map Diagnostic.place) := by
  rcases d.load_cases read with ⟨path, failure, _, failed⟩ | ⟨config, outcome⟩
  · rw [failed] at loaded
    cases loaded
  · cases named : d.path? with
    | none =>
        have absent : d = .absent := by
          cases d <;> first | rfl | cases named
        subst absent
        exact List.nil_subperm
    | some path =>
        let place : Position → Option Path × Nat × Nat := fun at_ => placeIn (some path) (some at_)
        have places : (d.load read).diagnostics.map Diagnostic.place =
            (config.validate.map (·.position)).map place := by
          rw [outcome, named, LoadOutcome.diagnostics, List.map_map, List.map_map]
          rfl
        have listed : (config.removed.map (placeIn (some path))).Sublist
            ((config.issues.map (·.position)).map place) := by
          have inside := config.removed_sublist.map place
          rwa [List.map_map] at inside
        have sorted : (config.validate.map (·.position)).Perm (config.issues.map (·.position)) :=
          (List.mergeSort_perm _ _).map _
        rw [places, outcome]
        exact listed.subperm.trans (sorted.map place).symm.subperm

end SourceLint
