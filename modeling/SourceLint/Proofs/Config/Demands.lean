import SourceLint.Proofs.Config.Reporting
import SourceLint.Proofs.Config.Sensible
import SourceLint.Proofs.Sorting

/-! # What settings have to be

Each setting that a configuration has makes demands, whatever the others are. Validation finds the
demands that are not met, every one and no other. It puts them in the order of their positions, and
those of one position in the order in which the settings are gone through.
-/

namespace SourceLint

/-- What a setting has to be. -/
inductive Requirement where
  /-- A number of workers in range. -/
  | workers (n : Int)
  /-- A glob that takes something out, in the attribute `field`. -/
  | glob (field pattern : String)
  /-- The literal of a positive number, in the attribute `field`. -/
  | positive (field literal : String)
  /-- A tab no wider than a line. -/
  | narrow (tab line : Nat)

namespace Requirement

/-- The setting is what it has to be. -/
def IsMet : Requirement → Prop
  | workers n => 1 ≤ n ∧ n ≤ 256
  | glob _ pattern => Text.isBlankText pattern = false ∧ ∃ tokens, Glob.compile pattern = .ok tokens
  | positive _ literal => Text.SpellsPositive literal
  | narrow tab line => tab ≤ line

instance : (r : Requirement) → Decidable r.IsMet
  | workers n => inferInstanceAs (Decidable (1 ≤ n ∧ n ≤ 256))
  | glob _ _ => decidable_of_iff _ Glob.isSensible_iff
  | positive _ literal => inferInstanceAs (Decidable (Text.SpellsPositive literal))
  | narrow tab line => inferInstanceAs (Decidable (tab ≤ line))

theorem isMet_glob {field pattern : String} : IsMet (.glob field pattern) ↔
    Text.isBlankText pattern = false ∧ ∃ tokens, Glob.compile pattern = .ok tokens :=
  Iff.rfl

/-- What is said about a setting that is not. -/
def complaint : Requirement → String
  | workers n => "parallelism must be between 1 and 256, found " ++ toString n
  | glob field pattern =>
    if Text.isBlankText pattern then field ++ " must not be empty"
    else
      match Glob.compile pattern with
      | .ok _ => ""
      | .error fault => field ++ " \"" ++ pattern ++ "\" is not a valid glob: " ++ fault.render
  | positive field literal => field ++ " must be a positive integer, found \"" ++ literal ++ "\""
  | narrow tab line => "tabWidth (" ++ toString tab ++ ") must not exceed maxLineLength (" ++
      toString line ++ ")"

end Requirement

/-- Something that is required of a setting, and where the setting stands. -/
structure Demand where
  requirement : Requirement
  position : Option Position

/-- The issue that there is if the demand is not met. Where there is no position, it stands at the
start. -/
def Demand.issue (d : Demand) : Issue :=
  ⟨d.position.getD ⟨1, 1⟩, d.requirement.complaint⟩

/-- The issues of the demands that are not met. -/
def unmet (ds : List Demand) : List Issue :=
  (ds.filter fun d => ¬ d.requirement.IsMet).map Demand.issue

theorem unmet_of_met {r : Requirement} (met : r.IsMet) (at_ : Option Position) :
    unmet [⟨r, at_⟩] = [] := by
  simp [unmet, met]

theorem unmet_of_not_met {r : Requirement} (failed : ¬ r.IsMet) (at_ : Option Position) :
    unmet [⟨r, at_⟩] = [(Demand.mk r at_).issue] := by
  simp [unmet, failed]

@[simp] theorem unmet_append (ds ds' : List Demand) : unmet (ds ++ ds') = unmet ds ++ unmet ds' := by
  rw [unmet, List.filter_append, List.map_append, unmet, unmet]

theorem unmet_flatMap {A : Type} (l : List A) (f : A → List Demand) :
    unmet (l.flatMap f) = l.flatMap fun a => unmet (f a) := by
  induction l with
  | nil => rfl
  | cons a rest ih => rw [List.flatMap_cons, List.flatMap_cons, unmet_append, ih]

theorem mem_unmet_iff {ds : List Demand} {i : Issue} :
    i ∈ unmet ds ↔ ∃ d ∈ ds, ¬ d.requirement.IsMet ∧ d.issue = i := by
  simp [unmet, and_assoc]

theorem unmet_eq_nil_iff {ds : List Demand} : unmet ds = [] ↔ ∀ d ∈ ds, d.requirement.IsMet := by
  simp [unmet]

/-! ## The demands of a configuration -/

def workerDemands (at_ : Option Position) (parallelism : Option Int) : List Demand :=
  parallelism.toList.map fun n => ⟨.workers n, at_⟩

def globDemands (field : String) (at_ : Option Position) (pattern : Option String) : List Demand :=
  pattern.toList.map fun p => ⟨.glob field p, at_⟩

/-- Both bounds have to be numbers, and where they are, the one must not exceed the other. -/
def lineDemands (at_ : Option Position) (maxLineLength tabWidth : Option String) : List Demand :=
  maxLineLength.toList.map (fun literal => ⟨.positive "maxLineLength" literal, at_⟩) ++
    tabWidth.toList.map (fun literal => ⟨.positive "tabWidth" literal, at_⟩) ++
    match maxLineLength.bind Text.parsePositive, tabWidth.bind Text.parsePositive with
    | some line, some tab => [⟨.narrow tab line, at_⟩]
    | _, _ => []

def AnalyzerSection.demands (s : AnalyzerSection) : List Demand :=
  workerDemands s.position s.parallelism ++
    s.excludes.flatMap fun x => globDemands "pattern" x.position (some x.pattern)

def LongLineSection.demands (s : LongLineSection) : List Demand :=
  lineDemands s.position s.maxLineLength s.tabWidth

def UnusedFunctionSection.demands (s : UnusedFunctionSection) : List Demand :=
  s.excludes.flatMap fun x => globDemands "name" x.position (some x.pattern)

namespace Config

/-- What is demanded of the settings of a configuration, in the order of the checks. -/
def demands (c : Config) : List Demand :=
  (c.analyzer.map AnalyzerSection.demands).getD [] ++
    (c.longLine.map LongLineSection.demands).getD [] ++
    (c.unusedFunction.map UnusedFunctionSection.demands).getD []

/-! ## The checks -/

theorem toList_checkParallelism (s : AnalyzerSection) :
    (checkParallelism s).toList = unmet (workerDemands s.position s.parallelism) := by
  have words : "parallelism must be between 1 and " ++ toString maxParallelism ++ ", found " =
      "parallelism must be between 1 and 256, found " := by decide +kernel
  rw [checkParallelism, workerDemands]
  cases s.parallelism with
  | none => rfl
  | some n =>
      rw [Option.bind_some, isSome_validParallelism?, words, Option.toList_some, List.map_singleton]
      by_cases range : 1 ≤ n ∧ n ≤ 256
      · rw [decide_eq_true range, unmet_of_met (show Requirement.IsMet (.workers n) from range)]
        rfl
      · rw [decide_eq_false range,
          unmet_of_not_met (show ¬ Requirement.IsMet (.workers n) from range)]
        rfl

theorem toList_checkExclude (field : String) (x : ExcludeEntry) :
    (checkExclude field x).toList = unmet (globDemands field x.position (some x.pattern)) := by
  rw [checkExclude, globDemands, Option.toList_some, List.map_singleton]
  by_cases blank : Text.isBlankText x.pattern = true
  · have failed : ¬ Requirement.IsMet (.glob field x.pattern) := by
      simp [Requirement.isMet_glob, blank]
    have said : Requirement.complaint (.glob field x.pattern) = field ++ " must not be empty" :=
      if_pos blank
    rw [if_pos blank, unmet_of_not_met failed, Demand.issue, said]
    rfl
  · rw [if_neg blank]
    cases compiled : Glob.compile x.pattern with
    | ok tokens =>
        have met : Requirement.IsMet (.glob field x.pattern) :=
          Requirement.isMet_glob.mpr ⟨Bool.eq_false_iff.mpr blank, tokens, compiled⟩
        rw [unmet_of_met met]
        rfl
    | error fault =>
        have failed : ¬ Requirement.IsMet (.glob field x.pattern) := by
          simp [Requirement.isMet_glob, compiled]
        have said : Requirement.complaint (.glob field x.pattern) =
            field ++ " \"" ++ x.pattern ++ "\" is not a valid glob: " ++ fault.render :=
          (if_neg blank).trans (by rw [compiled])
        rw [unmet_of_not_met failed, Demand.issue, said]
        rfl

theorem filterMap_checkExclude (field : String) (excludes : List ExcludeEntry) :
    excludes.filterMap (checkExclude field) =
      unmet (excludes.flatMap fun x => globDemands field x.position (some x.pattern)) := by
  rw [unmet_flatMap]
  simp only [← toList_checkExclude, List.filterMap_eq_flatMap_toList]

theorem toList_checkPositive (field : String) (raw : Option String) (at_ : Option Position) :
    (checkPositive field raw at_).toList =
      unmet (raw.toList.map fun literal => ⟨.positive field literal, at_⟩) := by
  rw [checkPositive]
  cases raw with
  | none => rfl
  | some literal =>
      rw [Option.bind_some, isSome_parsePositive, Option.toList_some, List.map_singleton]
      by_cases spelled : Text.SpellsPositive literal
      · rw [decide_eq_true spelled,
          unmet_of_met (show Requirement.IsMet (.positive field literal) from spelled)]
        rfl
      · rw [decide_eq_false spelled,
          unmet_of_not_met (show ¬ Requirement.IsMet (.positive field literal) from spelled)]
        rfl

theorem toList_checkTabWithinLine (s : LongLineSection) :
    (checkTabWithinLine s).toList =
      unmet (match s.maxLineLength.bind Text.parsePositive, s.tabWidth.bind Text.parsePositive with
        | some line, some tab => [⟨.narrow tab line, s.position⟩]
        | _, _ => []) := by
  rw [checkTabWithinLine]
  cases s.maxLineLength.bind Text.parsePositive with
  | none => rfl
  | some line =>
      cases s.tabWidth.bind Text.parsePositive with
      | none => rfl
      | some tab =>
          by_cases narrow : tab ≤ line
          · have kept : ¬ tab > line := Nat.not_lt.mpr narrow
            simp only [Option.bind_eq_bind, Option.bind_some, if_neg kept]
            exact (unmet_of_met (show Requirement.IsMet (.narrow tab line) from narrow) _).symm
          · have wide : tab > line := Nat.not_le.mp narrow
            simp only [Option.bind_eq_bind, Option.bind_some, if_pos wide]
            exact (unmet_of_not_met
              (show ¬ Requirement.IsMet (.narrow tab line) from narrow) _).symm

theorem analyzerIssues_eq (s : AnalyzerSection) : analyzerIssues s = unmet s.demands := by
  rw [analyzerIssues, AnalyzerSection.demands, unmet_append, toList_checkParallelism,
    filterMap_checkExclude]

theorem longLineIssues_eq (s : LongLineSection) : longLineIssues s = unmet s.demands := by
  rw [longLineIssues, LongLineSection.demands, lineDemands, unmet_append, unmet_append,
    toList_checkPositive, toList_checkPositive, toList_checkTabWithinLine]

theorem unusedFunctionIssues_eq (s : UnusedFunctionSection) :
    unusedFunctionIssues s = unmet s.demands :=
  filterMap_checkExclude "name" s.excludes

/-- The checks find the demands that are not met. -/
theorem issues_eq (c : Config) : c.issues = unmet c.demands := by
  have getD {S : Type} (issues : S → List Issue) (demands : S → List Demand)
      (same : ∀ s, issues s = unmet (demands s)) (section_ : Option S) :
      (section_.map issues).getD [] = unmet ((section_.map demands).getD []) := by
    cases section_ with
    | none => rfl
    | some s => exact same s
  rw [issues, demands, unmet_append, unmet_append, getD _ _ analyzerIssues_eq,
    getD _ _ longLineIssues_eq, getD _ _ unusedFunctionIssues_eq]

/-! ## Their order -/

/-- What is found wrong with a configuration: every demand that is not met and no other, in the
order of the positions, and for one position in the order of the checks. -/
structure Refuses (c : Config) (found : List Issue) : Prop where
  perm : found.Perm (unmet c.demands)
  ordered : found.Pairwise fun i j => i.position.line < j.position.line ∨
    i.position.line = j.position.line ∧ i.position.column ≤ j.position.column
  stable : ∀ p, found.filter (·.position = p) = (unmet c.demands).filter (·.position = p)
  clean : found = [] ↔ ∀ d ∈ c.demands, d.requirement.IsMet

theorem refuses_validate (c : Config) : c.Refuses c.validate where
  perm := by
    rw [← issues_eq]
    exact List.mergeSort_perm _ _
  ordered := c.pairwise_validate.imp fun before => Position.le_iff.mp before
  stable p := by
    rw [validate, ← issues_eq]
    refine filter_mergeSort (fun i j k => Position.le_trans i.position j.position k.position)
      (fun i j => Position.le_total i.position j.position) (fun i j here there => ?_) c.issues
    rw [of_decide_eq_true here, of_decide_eq_true there, Position.le_iff]
    exact .inr ⟨rfl, Nat.le_refl _⟩
  clean := by
    rw [← unmet_eq_nil_iff, ← issues_eq]
    exact ⟨fun none => List.Perm.eq_nil (none ▸ (List.mergeSort_perm _ _).symm),
      fun none => none ▸ List.mergeSort_nil⟩

end Config

end SourceLint
