import SourceLint.Config.Document
import SourceLint.Diagnostic
import SourceLint.Proofs.Glob.Plain
import SourceLint.Proofs.Text.Decimal

/-! # Settings that make sense

A configuration without the settings that make no sense amounts to the same numbers, and each
setting that is missing from it has an issue at its position. Where there is no issue nothing
is missing, and what is written is what counts.
-/

namespace SourceLint

/-- The section without a number of workers that is out of range, and without globs that are
blank or do not compile. -/
def AnalyzerSection.sensible (s : AnalyzerSection) : AnalyzerSection :=
  { s with
    parallelism := s.parallelism.filter fun n => 1 ≤ n ∧ n ≤ 256
    excludes := s.excludes.filter fun e => Glob.isSensible e.pattern }

/-- The section without bounds that are no positive numbers. -/
def LongLineSection.sensible (s : LongLineSection) : LongLineSection :=
  { s with
    maxLineLength := s.maxLineLength.filter fun literal => Text.SpellsPositive literal
    tabWidth := s.tabWidth.filter fun literal => Text.SpellsPositive literal }

/-- The section without globs that are blank or do not compile. -/
def UnusedFunctionSection.sensible (s : UnusedFunctionSection) : UnusedFunctionSection :=
  { s with excludes := s.excludes.filter fun e => Glob.isSensible e.pattern }

/-- The position of a setting that is not kept. -/
def dropped {A : Type} (kept : A → Bool) (at_ : Option Position) (setting : Option A) :
    List (Option Position) :=
  if setting.any (!kept ·) then [at_] else []

/-- The positions of the globs that make no sense. -/
def droppedExcludes (excludes : List ExcludeEntry) : List (Option Position) :=
  (excludes.filter fun e => !Glob.isSensible e.pattern).map (·.position)

namespace Config

/-- The configuration without the settings that make no sense. -/
def sensible (c : Config) : Config :=
  { c with
    analyzer := c.analyzer.map .sensible
    longLine := c.longLine.map .sensible
    unusedFunction := c.unusedFunction.map .sensible }

/-- The positions of the settings that make no sense, one for each of them. A number of workers
and a bound stand where their section does. -/
def removed (c : Config) : List (Option Position) :=
  (c.analyzer.map fun s =>
    dropped (fun n : Int => 1 ≤ n ∧ n ≤ 256) s.position s.parallelism ++
      droppedExcludes s.excludes).getD [] ++
  (c.longLine.map fun s =>
    dropped (fun literal => Text.SpellsPositive literal) s.position s.maxLineLength ++
      dropped (fun literal => Text.SpellsPositive literal) s.position s.tabWidth).getD [] ++
  (c.unusedFunction.map fun s => droppedExcludes s.excludes).getD []

/-! ## The same numbers -/

theorem isSome_validParallelism? (n : Int) :
    (validParallelism? n).isSome = decide (1 ≤ n ∧ n ≤ 256) := by
  rw [validParallelism?]
  split <;> rename_i range
  · exact (decide_eq_true range).symm
  · exact (decide_eq_false range).symm

theorem isSome_parsePositive (literal : String) :
    (Text.parsePositive literal).isSome = decide (Text.SpellsPositive literal) :=
  Bool.eq_iff_iff.mpr (Text.isSome_parsePositive_iff.trans decide_eq_true_iff.symm)

/-- A setting that would not be read might as well be left out. -/
theorem bind_filter_isSome {A B : Type} (read : A → Option B) (setting : Option A) :
    (setting.filter fun a => (read a).isSome).bind read = setting.bind read := by
  cases setting with
  | none => rfl
  | some a =>
      rw [Option.filter_some]
      split
      · rfl
      · rename_i unread
        exact (Option.not_isSome_iff_eq_none.mp unread).symm

theorem effectiveMaxLineLength_sensible (s : LongLineSection) :
    s.sensible.effectiveMaxLineLength = s.effectiveMaxLineLength := by
  simp only [LongLineSection.effectiveMaxLineLength, LongLineSection.sensible,
    ← isSome_parsePositive, bind_filter_isSome]

theorem effectiveTabWidth_sensible (s : LongLineSection) :
    s.sensible.effectiveTabWidth = s.effectiveTabWidth := by
  simp only [LongLineSection.effectiveTabWidth, LongLineSection.sensible, ← isSome_parsePositive,
    bind_filter_isSome]

theorem maxLineLength_sensible (c : Config) : c.sensible.maxLineLength = c.maxLineLength := by
  simp only [maxLineLength, sensible, Option.map_map, Function.comp_def,
    effectiveMaxLineLength_sensible]

theorem tabWidth_sensible (c : Config) : c.sensible.tabWidth = c.tabWidth := by
  simp only [tabWidth, sensible, Option.map_map, Function.comp_def, effectiveTabWidth_sensible]

theorem parallelism?_sensible (c : Config) : c.sensible.parallelism? = c.parallelism? := by
  rw [parallelism?, parallelism?, sensible]
  cases c.analyzer with
  | none => rfl
  | some s =>
      have same := bind_filter_isSome validParallelism? s.parallelism
      simp only [isSome_validParallelism?] at same
      exact same

theorem ruleSettings?_sensible (c : Config) (rule : String) :
    c.sensible.ruleSettings? rule = c.ruleSettings? rule := by
  simp only [ruleSettings?, sensible, Option.map_map]
  rfl

theorem includesPublic_sensible (c : Config) : c.sensible.includesPublic = c.includesPublic := by
  simp only [includesPublic, sensible]
  cases c.unusedFunction <;> rfl

theorem map_filter_pattern (excludes : List ExcludeEntry) :
    (excludes.filter fun e => Glob.isSensible e.pattern).map (·.pattern) =
      (excludes.map (·.pattern)).filter Glob.isSensible := by
  rw [List.filter_map]
  rfl

theorem excludePatterns_sensible (c : Config) :
    c.sensible.excludePatterns = c.excludePatterns.filter Glob.isSensible := by
  simp only [excludePatterns, sensible]
  cases c.analyzer with
  | none => rfl
  | some s => exact map_filter_pattern s.excludes

theorem functionExcludes_sensible (c : Config) :
    c.sensible.functionExcludes = c.functionExcludes.filter Glob.isSensible := by
  simp only [functionExcludes, sensible]
  cases c.unusedFunction with
  | none => rfl
  | some s => exact map_filter_pattern s.excludes

/-! ## Issues -/

theorem positions_checkParallelism (s : AnalyzerSection) :
    (checkParallelism s).toList.map (·.position) =
      (dropped (fun n : Int => 1 ≤ n ∧ n ≤ 256) s.position s.parallelism).map (·.getD .start) := by
  rw [checkParallelism, dropped]
  cases s.parallelism with
  | none => rfl
  | some n =>
      rw [Option.bind_some, isSome_validParallelism?, Option.any_some]
      cases decide (1 ≤ n ∧ n ≤ 256) <;> rfl

theorem positions_checkPositive (field : String) (raw : Option String) (at_ : Option Position) :
    (checkPositive field raw at_).toList.map (·.position) =
      (dropped (fun literal => Text.SpellsPositive literal) at_ raw).map (·.getD .start) := by
  rw [checkPositive, dropped]
  cases raw with
  | none => rfl
  | some literal =>
      rw [Option.bind_some, isSome_parsePositive, Option.any_some]
      cases decide (Text.SpellsPositive literal) <;> rfl

theorem position_checkExclude (field : String) (e : ExcludeEntry) :
    (checkExclude field e).map (·.position) =
      if Glob.isSensible e.pattern then none else some (e.position.getD .start) := by
  rw [checkExclude, Glob.isSensible, Glob.isValid]
  cases Text.isBlankText e.pattern with
  | true => rfl
  | false => cases Glob.compile e.pattern <;> rfl

theorem positions_checkExclude (field : String) (excludes : List ExcludeEntry) :
    (excludes.filterMap (checkExclude field)).map (·.position) =
      (droppedExcludes excludes).map (·.getD .start) := by
  rw [droppedExcludes, List.map_filterMap, List.map_map]
  induction excludes with
  | nil => rfl
  | cons e rest ih =>
      rw [List.filterMap_cons, position_checkExclude, List.filter_cons, ih]
      cases Glob.isSensible e.pattern <;> rfl

/-- Each setting that makes no sense has an issue of its own. -/
theorem removed_sublist (c : Config) :
    (c.removed.map (·.getD .start)).Sublist (c.issues.map (·.position)) := by
  rw [removed, issues, List.map_append, List.map_append, List.map_append, List.map_append]
  refine List.Sublist.append (List.Sublist.append ?_ ?_) ?_
  · cases c.analyzer with
    | none => exact .refl []
    | some s =>
        simp only [Option.map_some, Option.getD_some, analyzerIssues, List.map_append,
          positions_checkParallelism, positions_checkExclude]
        exact .refl _
  · cases c.longLine with
    | none => exact .refl []
    | some s =>
        simp only [Option.map_some, Option.getD_some, longLineIssues, List.map_append,
          positions_checkPositive]
        exact List.sublist_append_left _ _
  · cases c.unusedFunction with
    | none => exact .refl []
    | some s =>
        simp only [Option.map_some, Option.getD_some, unusedFunctionIssues,
          positions_checkExclude]
        exact .refl _

/-! ## Where nothing is removed -/

/-- What is written is what counts. -/
structure IsEffective (c : Config) : Prop where
  parallelism {s : AnalyzerSection} {n : Int} (section_ : c.analyzer = some s)
    (written : s.parallelism = some n) : ∃ workers : Nat, c.parallelism? = some workers ∧ workers = n
  maxLineLength {s : LongLineSection} {literal : String} (section_ : c.longLine = some s)
    (written : s.maxLineLength = some literal) : Text.Spells literal c.maxLineLength
  tabWidth {s : LongLineSection} {literal : String} (section_ : c.longLine = some s)
    (written : s.tabWidth = some literal) : Text.Spells literal c.tabWidth
  excludes : ∀ p ∈ c.excludePatterns, Glob.isSensible p = true
  functionExcludes : ∀ p ∈ c.functionExcludes, Glob.isSensible p = true

theorem dropped_eq_nil_iff {A : Type} {kept : A → Bool} {at_ : Option Position}
    {setting : Option A} : dropped kept at_ setting = [] ↔ ∀ a, setting = some a → kept a = true := by
  cases setting <;> simp [dropped]

theorem droppedExcludes_eq_nil_iff {excludes : List ExcludeEntry} :
    droppedExcludes excludes = [] ↔ ∀ p ∈ excludes.map (·.pattern), Glob.isSensible p = true := by
  simp [droppedExcludes]

theorem spells_getD {s : String} (spelled : Text.SpellsPositive s) (default : Nat) :
    Text.Spells s ((Text.parsePositive s).getD default) := by
  obtain ⟨n, read⟩ := Option.isSome_iff_exists.mp (Text.isSome_parsePositive_iff.mpr spelled)
  rw [read]
  exact (Text.parsePositive_eq_some_iff.mp read).1

theorem isEffective {c : Config} (none : c.removed = []) : c.IsEffective := by
  simp only [removed, List.append_eq_nil_iff] at none
  obtain ⟨⟨analyzer, longLine⟩, unusedFunction⟩ := none
  constructor
  case parallelism =>
    intro s n section_ written
    rw [section_] at analyzer
    have kept := dropped_eq_nil_iff.mp (List.append_eq_nil_iff.mp analyzer).1 n written
    have range := of_decide_eq_true kept
    refine ⟨n.toNat, ?_, Int.toNat_of_nonneg (by omega)⟩
    rw [parallelism?, section_, Option.bind_some, written, Option.bind_some, validParallelism?]
    exact if_pos range
  case maxLineLength =>
    intro s literal section_ written
    rw [section_] at longLine
    have kept := dropped_eq_nil_iff.mp (List.append_eq_nil_iff.mp longLine).1 literal written
    rw [Config.maxLineLength, section_, Option.map_some, Option.getD_some,
      LongLineSection.effectiveMaxLineLength, written]
    exact spells_getD (of_decide_eq_true kept) _
  case tabWidth =>
    intro s literal section_ written
    rw [section_] at longLine
    have kept := dropped_eq_nil_iff.mp (List.append_eq_nil_iff.mp longLine).2 literal written
    rw [Config.tabWidth, section_, Option.map_some, Option.getD_some,
      LongLineSection.effectiveTabWidth, written]
    exact spells_getD (of_decide_eq_true kept) _
  case excludes =>
    rw [excludePatterns]
    cases section_ : c.analyzer with
    | none => simp
    | some s =>
        rw [section_] at analyzer
        exact droppedExcludes_eq_nil_iff.mp (List.append_eq_nil_iff.mp analyzer).2
  case functionExcludes =>
    rw [functionExcludes]
    cases section_ : c.unusedFunction with
    | none => simp
    | some s =>
        rw [section_] at unusedFunction
        exact droppedExcludes_eq_nil_iff.mp unusedFunction

end Config

end SourceLint
