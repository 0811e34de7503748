import SourceLint.Config.Document
import SourceLint.Proofs.Binding.Repositioning

/-! # Loading at other positions

Nothing in a load depends on where elements stand but the positions in its outcome, and the order of
the issues. So where the elements stand elsewhere in the same order, the outcome is the same but for
its positions.
-/

namespace SourceLint

/-! ## What has positions -/

def ExcludeEntry.mapPositions (f : Option Position → Option Position) (e : ExcludeEntry) :
    ExcludeEntry :=
  { e with position := f e.position }

def AnalyzerSection.mapPositions (f : Option Position → Option Position) (s : AnalyzerSection) :
    AnalyzerSection :=
  { s with excludes := s.excludes.map (ExcludeEntry.mapPositions f), position := f s.position }

def LongLineSection.mapPositions (f : Option Position → Option Position) (s : LongLineSection) :
    LongLineSection :=
  { s with position := f s.position }

def UnusedFunctionSection.mapPositions (f : Option Position → Option Position)
    (s : UnusedFunctionSection) : UnusedFunctionSection :=
  { s with excludes := s.excludes.map (ExcludeEntry.mapPositions f), position := f s.position }

/-- The configuration with other positions, for itself and for all its parts. -/
def Config.mapPositions (f : Option Position → Option Position) (c : Config) : Config :=
  { c with
    analyzer := c.analyzer.map (AnalyzerSection.mapPositions f)
    longLine := c.longLine.map (LongLineSection.mapPositions f)
    unusedFunction := c.unusedFunction.map (UnusedFunctionSection.mapPositions f)
    position := f c.position }

/-- The issue at another position. -/
def Issue.move (π : Position → Position) (i : Issue) : Issue :=
  { i with position := π i.position }

/-- The failure where the elements of the document stand elsewhere. -/
def LoadFailure.move (π : Position → Position) : LoadFailure → LoadFailure
  | mismatch e => .mismatch (e.mapPositions (Option.map π))
  | malformed e => .malformed e
  | unreadable path e => .unreadable path e

/-- The outcome where the elements of the document stand elsewhere. -/
def LoadOutcome.move (π : Position → Position) (o : LoadOutcome) : LoadOutcome :=
  { o with
    config := o.config.mapPositions (Option.map π)
    failure := o.failure.map (LoadFailure.move π)
    issues := o.issues.map (Issue.move π) }

/-! ## Configurations -/

section

variable (f : Option Position → Option Position)

theorem ExcludeEntry.ofBound_mapPositions (field : String) (b : Bound) :
    ofBound field (b.mapPositions f) = (ofBound field b).mapPositions f := by
  simp [ofBound, mapPositions, Bound.text?]

theorem RuleSettings.ofBound_mapPositions (b : Bound) : ofBound (b.mapPositions f) = ofBound b := by
  simp [ofBound, Bound.boolean?, Bound.severity?]

theorem ExcludeEntry.map_ofBound_mapPositions (field : String) (bounds : List Bound) :
    (bounds.map (Bound.mapPositions f)).map (ofBound field) =
      (bounds.map (ofBound field)).map (mapPositions f) := by
  rw [List.map_map, List.map_map]
  exact List.map_congr_left fun b _ => ofBound_mapPositions f field b

theorem AnalyzerSection.ofBound_mapPositions (b : Bound) :
    ofBound (b.mapPositions f) = (ofBound b).mapPositions f := by
  simp only [ofBound, mapPositions, Bound.childrenNamed_mapPositions,
    ExcludeEntry.map_ofBound_mapPositions, Bound.mapPositions_position, Bound.integer?,
    Bound.value?_mapPositions]

theorem LongLineSection.ofBound_mapPositions (b : Bound) :
    ofBound (b.mapPositions f) = (ofBound b).mapPositions f := by
  simp only [ofBound, mapPositions, RuleSettings.ofBound_mapPositions, Bound.mapPositions_position,
    Bound.text?, Bound.value?_mapPositions]

theorem UnusedFunctionSection.ofBound_mapPositions (b : Bound) :
    ofBound (b.mapPositions f) = (ofBound b).mapPositions f := by
  simp only [ofBound, mapPositions, RuleSettings.ofBound_mapPositions,
    Bound.childrenNamed_mapPositions, ExcludeEntry.map_ofBound_mapPositions,
    Bound.mapPositions_position, Bound.boolean?, Bound.value?_mapPositions]

namespace Config

theorem ofBound_mapPositions (b : Bound) :
    ofBound (b.mapPositions f) = (ofBound b).mapPositions f := by
  simp only [ofBound, mapPositions, Bound.child?_mapPositions, Option.map_map, Function.comp_def,
    AnalyzerSection.ofBound_mapPositions, LongLineSection.ofBound_mapPositions,
    UnusedFunctionSection.ofBound_mapPositions, Bound.mapPositions_position, Bound.severity?,
    Bound.value?_mapPositions]

theorem bind_mapPositions (root : Markup.Element) :
    bind (root.mapPositions f) =
      ((bind root).map (mapPositions f)).mapError (Binding.Error.mapPositions f) := by
  rw [bind, bind, Binding.bind_mapPositions]
  cases Binding.bind Schema.config root with
  | error e => rfl
  | ok b => exact congrArg Except.ok (ofBound_mapPositions f b)

end Config

end

/-! ## Issues -/

namespace Config

/-- The issues depend on positions only for where they stand. -/
def Uniform (issues : (Option Position → Option Position) → List Issue) : Prop :=
  ∃ raised : List (Option Position × String), ∀ f, issues f = raised.map fun r => issueAt (f r.1) r.2

variable (f : Option Position → Option Position)

theorem uniform_nil : Uniform fun _ => [] :=
  ⟨[], fun _ => rfl⟩

theorem Uniform.append {first second : (Option Position → Option Position) → List Issue}
    (uniform : Uniform first) (uniform' : Uniform second) :
    Uniform fun f => first f ++ second f := by
  obtain ⟨raised, is⟩ := uniform
  obtain ⟨raised', is'⟩ := uniform'
  exact ⟨raised ++ raised', fun f => by simp only [is, is', List.map_append]⟩

/-- A check that says the same wherever its section stands. -/
theorem uniform_check {check : (Option Position → Option Position) → Option Issue}
    {at_ : Option Position} {message : Option String}
    (is : ∀ f, check f = message.map (issueAt (f at_))) : Uniform fun f => (check f).toList := by
  refine ⟨(message.map fun m => (at_, m)).toList, fun f => ?_⟩
  simp only [is]
  cases message <;> rfl

theorem checkExclude_mapPositions (field : String) (e : ExcludeEntry) :
    checkExclude field (e.mapPositions f) =
      ((checkExclude field e).map (·.message)).map (issueAt (f e.position)) := by
  rw [checkExclude, checkExclude, ExcludeEntry.mapPositions]
  cases Text.isBlankText e.pattern with
  | true => rfl
  | false => cases Glob.compile e.pattern <;> rfl

theorem checkParallelism_mapPositions (s : AnalyzerSection) :
    checkParallelism (s.mapPositions f) =
      ((checkParallelism s).map (·.message)).map (issueAt (f s.position)) := by
  rw [checkParallelism, checkParallelism, AnalyzerSection.mapPositions]
  cases s.parallelism with
  | none => rfl
  | some n =>
      simp only [Option.bind_some]
      split <;> rfl

theorem checkPositive_eq (field : String) (raw : Option String) (at_ : Option Position) :
    checkPositive field raw (f at_) =
      ((checkPositive field raw at_).map (·.message)).map (issueAt (f at_)) := by
  rw [checkPositive, checkPositive]
  cases raw with
  | none => rfl
  | some literal =>
      simp only [Option.bind_some]
      split <;> rfl

theorem checkTabWithinLine_mapPositions (s : LongLineSection) :
    checkTabWithinLine (s.mapPositions f) =
      ((checkTabWithinLine s).map (·.message)).map (issueAt (f s.position)) := by
  rw [checkTabWithinLine, checkTabWithinLine, LongLineSection.mapPositions]
  cases s.maxLineLength.bind Text.parsePositive with
  | none => rfl
  | some max =>
      cases s.tabWidth.bind Text.parsePositive with
      | none => rfl
      | some tab =>
          simp only [Option.bind_eq_bind, Option.bind_some]
          split <;> rfl

theorem uniform_excludes (field : String) (excludes : List ExcludeEntry) :
    Uniform fun f =>
      (excludes.map (ExcludeEntry.mapPositions f)).filterMap (checkExclude field) := by
  induction excludes with
  | nil => exact uniform_nil
  | cons e rest ih =>
      obtain ⟨raised, is⟩ := (uniform_check fun f => checkExclude_mapPositions f field e).append ih
      refine ⟨raised, fun f => ?_⟩
      rw [← is]
      simp only [List.map_cons, List.filterMap_cons]
      cases checkExclude field (e.mapPositions f) <;> rfl

theorem uniform_analyzer (s : AnalyzerSection) :
    Uniform fun f => analyzerIssues (s.mapPositions f) :=
  (uniform_check fun f => checkParallelism_mapPositions f s).append (uniform_excludes _ s.excludes)

theorem uniform_longLine (s : LongLineSection) :
    Uniform fun f => longLineIssues (s.mapPositions f) :=
  ((uniform_check fun f => checkPositive_eq f _ _ _).append
    (uniform_check fun f => checkPositive_eq f _ _ _)).append
      (uniform_check fun f => checkTabWithinLine_mapPositions f s)

theorem uniform_unusedFunction (s : UnusedFunctionSection) :
    Uniform fun f => unusedFunctionIssues (s.mapPositions f) :=
  uniform_excludes _ s.excludes

theorem uniform_section {S : Type} {mapPositions : (Option Position → Option Position) → S → S}
    {check : S → List Issue} (uniform : ∀ s, Uniform fun f => check (mapPositions f s))
    (section_ : Option S) :
    Uniform fun f => ((section_.map (mapPositions f)).map check).getD [] := by
  cases section_ with
  | none => exact uniform_nil
  | some s => exact uniform s

/-- A configuration has the same issues wherever its parts stand. -/
theorem uniform_issues (c : Config) : Uniform fun f => (c.mapPositions f).issues :=
  ((uniform_section uniform_analyzer c.analyzer).append
    (uniform_section uniform_longLine c.longLine)).append
      (uniform_section uniform_unusedFunction c.unusedFunction)

theorem mapPositions_mapPositions (c : Config) (f g : Option Position → Option Position) :
    (c.mapPositions g).mapPositions f = c.mapPositions fun at_ => f (g at_) := by
  simp only [mapPositions, Option.map_map]
  congr 2
  · funext s
    simp only [Function.comp_apply, AnalyzerSection.mapPositions, List.map_map]
    rfl
  · funext s
    simp only [Function.comp_apply, UnusedFunctionSection.mapPositions, List.map_map]
    rfl

/-- Where each part has one of the positions in a list, so has each issue, and it is moved with
its part. -/
theorem issues_move {c : Config} {g : Option Position → Option Position}
    {occurring : List Position} (inside : ∀ at_, ∃ p ∈ occurring, g at_ = some p)
    (fixed : c.mapPositions g = c) (π : Position → Position) :
    (c.mapPositions (Option.map π)).issues = c.issues.map (Issue.move π) ∧
      ∀ i ∈ c.issues, i.position ∈ occurring := by
  obtain ⟨raised, is⟩ := uniform_issues c
  have own : (c.mapPositions g).issues = _ := is g
  have moved : (c.mapPositions fun at_ => (g at_).map π).issues = _ := is _
  rw [fixed] at own
  rw [← mapPositions_mapPositions, fixed] at moved
  rw [moved, own, List.map_map]
  constructor
  · refine List.map_congr_left fun r _ => ?_
    obtain ⟨p, _, is⟩ := inside r.1
    simp only [Function.comp_apply, is]
    rfl
  · intro i member
    obtain ⟨r, _, rfl⟩ := List.mem_map.mp member
    obtain ⟨p, there, is⟩ := inside r.1
    rw [is]
    exact there

/-- Moving the parts of a configuration in one order moves its issues, in the order they have. -/
theorem validate_move {c : Config} {g : Option Position → Option Position}
    {occurring : List Position} (inside : ∀ at_, ∃ p ∈ occurring, g at_ = some p)
    (fixed : c.mapPositions g = c) {π : Position → Position}
    (order : ∀ p ∈ occurring, ∀ q ∈ occurring, compare (π p) (π q) = compare p q) :
    (c.mapPositions (Option.map π)).validate = c.validate.map (Issue.move π) := by
  obtain ⟨moved, there⟩ := issues_move inside fixed π
  rw [validate, validate, moved, List.map_mergeSort]
  intro i member j member'
  rw [Issue.move, Issue.move, Position.le, Position.le, order _ (there i member) _ (there j member')]

end Config

/-! ## Loads -/

open Binding (Placed places eq_mapPositions)
open Markup.Element (positions)

/-- Positions can be taken to those that occur in a tree, without a change to the tree. -/
theorem exists_fixing {root : Markup.Element} (placed : Placed root.nodes) :
    ∃ g : Option Position → Option Position,
      (∀ at_, ∃ p ∈ positions root.nodes, g at_ = some p) ∧ root.mapPositions g = root := by
  obtain ⟨first, at_⟩ := Option.isSome_iff_exists.mp (placed root (Binding.nodes_self root))
  have occurs : first ∈ positions root.nodes :=
    List.mem_filterMap.mpr ⟨root, Binding.nodes_self root, at_⟩
  refine ⟨fun at_ => some (if at_.getD first ∈ positions root.nodes then at_.getD first else first),
    fun at_ => ⟨_, ?_, rfl⟩, (eq_mapPositions rfl ?_).symm⟩
  · split
    · assumption
    · exact occurs
  · rw [placed.places_eq, List.map_map]
    refine List.map_congr_left fun p member => ?_
    simp only [Function.comp_apply, Option.getD_some, if_pos member]

namespace LoadOutcome

/-- Two texts of one tree, whose elements stand in one order, are loaded with one outcome but for
the positions. -/
theorem ofText_move {text other : String} {root : Markup.Element} {π : Position → Position}
    (path : Path) (visible : Text.isBlankText text = false)
    (visible' : Text.isBlankText other = false) (parsed : Markup.parse text = .ok root)
    (parsed' : Markup.parse other = .ok (root.mapPositions (Option.map π)))
    (placed : Placed root.nodes)
    (order : ∀ p ∈ positions root.nodes, ∀ q ∈ positions root.nodes,
      compare (π p) (π q) = compare p q) :
    ofText path other = (ofText path text).move π := by
  obtain ⟨g, inside, fixed⟩ := exists_fixing placed
  simp only [ofText, visible, visible', parsed, parsed', Config.bind_mapPositions]
  cases bound : Config.bind root with
  | error e => rfl
  | ok config =>
      have same := Config.bind_mapPositions g root
      rw [fixed, bound] at same
      have validated := Config.validate_move inside (Except.ok.inj same).symm order
      simp only [Except.map, Except.mapError, validated]
      rfl

end LoadOutcome

end SourceLint
