import Mathlib.Logic.Relation
import SourceLint.Proofs.Binding.Reordering
import SourceLint.Proofs.Config.Repositioning

/-! # The order of sections and attributes

A configuration says what it says in any order of its sections and of the attributes of its
elements. Only the excludes of a section are a list, in the order in which they are written.
-/

namespace SourceLint

open Markup (Element)
open Binding (Conforms image)

namespace Config

/-- The attributes of one element of the document come in another order, or its sections do. -/
inductive Reorders : Element → Element → Prop where
  | attributes {root root' : Element} (reordered : Element.Reorders root root') :
    Reorders root root'
  | sections (name : String) (attributes : List Markup.Attribute)
    {children children' : List Element} (perm : children.Perm children') (at_ : Option Position) :
    Reorders ⟨name, attributes, children, at_⟩ ⟨name, attributes, children', at_⟩

variable {root root' : Element}

theorem Reorders.symm (reordered : Reorders root root') : Reorders root' root := by
  cases reordered with
  | attributes reordered => exact .attributes reordered.symm
  | sections name attributes perm at_ => exact .sections name attributes perm.symm at_

theorem Reorders.distinctNames (reordered : Reorders root root') (distinct : root.DistinctNames) :
    root'.DistinctNames := by
  cases reordered with
  | attributes reordered => exact reordered.distinctNames distinct
  | sections name attributes perm at_ =>
      obtain ⟨here, below⟩ := Element.distinctNames_iff.mp distinct
      exact Element.distinctNames_iff.mpr
        ⟨here, fun child member => below child (perm.mem_iff.mpr member)⟩

end Config

theorem Bound.child?_eq_head? (b : Bound) (name : String) :
    b.child? name = (b.childrenNamed name).head? :=
  List.head?_filter.symm

namespace Schema

theorem known_analyzer : config.child? analyzer.name = some analyzer := rfl

theorem known_longLine : config.child? longLine.name = some longLine := rfl

theorem known_unusedFunction : config.child? unusedFunction.name = some unusedFunction := rfl

end Schema

/-! ## One element with its attributes in another order -/

section

variable {schema : Schema} {e e' : Element} (reordered : Element.Reorders e e')
  (distinct : e.DistinctNames)

include reordered distinct

theorem ExcludeEntry.ofBound_of_reorders (field : String) (conforms : Conforms schema e) :
    ofBound field (image schema e') = ofBound field (image schema e) := by
  simp only [ofBound, Bound.text?, conforms.value?_of_reorders reordered distinct,
    Binding.image_position, reordered.position]

theorem RuleSettings.ofBound_of_reorders (conforms : Conforms schema e) :
    ofBound (image schema e') = ofBound (image schema e) := by
  simp only [ofBound, Bound.boolean?, Bound.severity?,
    conforms.value?_of_reorders reordered distinct]

/-- The excludes of a section stay in their order, each the same as before. -/
theorem ExcludeEntry.map_ofBound_of_reorders (field : String) {name : String} {inner : Schema}
    (conforms : Conforms schema e) (known : schema.child? name = some inner) :
    ((image schema e').childrenNamed name).map (ofBound field) =
      ((image schema e).childrenNamed name).map (ofBound field) :=
  conforms.map_childrenNamed reordered distinct known fun _ _ conforms reordered distinct =>
    ofBound_of_reorders reordered distinct field conforms

theorem AnalyzerSection.ofBound_of_reorders (conforms : Conforms Schema.analyzer e) :
    ofBound (image Schema.analyzer e') = ofBound (image Schema.analyzer e) := by
  have exclude :
      Schema.analyzer.child? Schema.analyzerExclude.name = some Schema.analyzerExclude := rfl
  simp only [ofBound, Bound.integer?, conforms.value?_of_reorders reordered distinct,
    ExcludeEntry.map_ofBound_of_reorders reordered distinct "pattern" conforms exclude,
    Binding.image_position, reordered.position]

theorem LongLineSection.ofBound_of_reorders (conforms : Conforms Schema.longLine e) :
    ofBound (image Schema.longLine e') = ofBound (image Schema.longLine e) := by
  simp only [ofBound, Bound.text?, conforms.value?_of_reorders reordered distinct,
    RuleSettings.ofBound_of_reorders reordered distinct conforms, Binding.image_position,
    reordered.position]

theorem UnusedFunctionSection.ofBound_of_reorders (conforms : Conforms Schema.unusedFunction e) :
    ofBound (image Schema.unusedFunction e') = ofBound (image Schema.unusedFunction e) := by
  have exclude : Schema.unusedFunction.child? Schema.unusedFunctionExclude.name =
      some Schema.unusedFunctionExclude := rfl
  simp only [ofBound, Bound.boolean?, conforms.value?_of_reorders reordered distinct,
    RuleSettings.ofBound_of_reorders reordered distinct conforms,
    ExcludeEntry.map_ofBound_of_reorders reordered distinct "name" conforms exclude,
    Binding.image_position, reordered.position]

/-- What is made of the section of a name stays the same. -/
theorem Binding.Conforms.map_child? {A : Type} {make : Bound → A} {name : String} {inner : Schema}
    (conforms : Conforms schema e) (known : schema.child? name = some inner)
    (made : ∀ child child', Conforms inner child → Element.Reorders child child' →
      child.DistinctNames → make (image inner child') = make (image inner child)) :
    ((image schema e').child? name).map make = ((image schema e).child? name).map make := by
  rw [Bound.child?_eq_head?, Bound.child?_eq_head?, ← List.head?_map, ← List.head?_map,
    conforms.map_childrenNamed reordered distinct known made]

theorem Config.ofBound_of_reorders (conforms : Conforms Schema.config e) :
    ofBound (image Schema.config e') = ofBound (image Schema.config e) := by
  have analyzer := conforms.map_child? reordered distinct Schema.known_analyzer
    fun _ _ conforms reordered distinct =>
      AnalyzerSection.ofBound_of_reorders reordered distinct conforms
  have longLine := conforms.map_child? reordered distinct Schema.known_longLine
    fun _ _ conforms reordered distinct =>
      LongLineSection.ofBound_of_reorders reordered distinct conforms
  have unusedFunction := conforms.map_child? reordered distinct Schema.known_unusedFunction
    fun _ _ conforms reordered distinct =>
      UnusedFunctionSection.ofBound_of_reorders reordered distinct conforms
  simp only [ofBound, Bound.severity?, conforms.value?_of_reorders reordered distinct,
    Binding.image_position, reordered.position, analyzer, longLine, unusedFunction]

end

/-! ## Sections in another order -/

/-- Of children that may stand once, the one of a name is found in any order. -/
theorem Binding.Conforms.child?_of_perm {schema inner : Schema} {e e' : Element}
    (conforms : Conforms schema e) (conforms' : Conforms schema e')
    (perm : e.children.Perm e'.children) {name : String} (known : schema.child? name = some inner)
    (once : inner.repeatable = false) :
    (image schema e').child? name = (image schema e).child? name := by
  have single := conforms.single known once
  have same : e'.children.filter (·.name = name) = e.children.filter (·.name = name) := by
    have kept := perm.filter (·.name = name)
    cases here : e.children.filter (·.name = name) with
    | nil =>
        rw [here] at kept
        exact kept.symm.eq_nil
    | cons child more =>
        rw [here, List.length_cons] at single
        obtain rfl : more = [] := List.eq_nil_of_length_eq_zero (by omega)
        rw [here] at kept
        exact List.perm_singleton.mp kept.symm
  rw [Bound.child?_eq_head?, Bound.child?_eq_head?, conforms.childrenNamed known,
    conforms'.childrenNamed known, same]

theorem Config.ofBound_of_perm {name : String} {attributes : List Markup.Attribute}
    {children children' : List Element} {at_ : Option Position}
    (conforms : Conforms Schema.config ⟨name, attributes, children, at_⟩)
    (perm : children.Perm children') (distinct : (attributes.map (·.name)).Nodup) :
    ofBound (image Schema.config ⟨name, attributes, children', at_⟩) =
      ofBound (image Schema.config ⟨name, attributes, children, at_⟩) := by
  have conforms' := conforms.of_perm perm
  have analyzer := conforms.child?_of_perm conforms' perm Schema.known_analyzer rfl
  have longLine := conforms.child?_of_perm conforms' perm Schema.known_longLine rfl
  have unusedFunction := conforms.child?_of_perm conforms' perm Schema.known_unusedFunction rfl
  simp only [ofBound, Bound.severity?, conforms.value?_image_eq conforms' (.refl _) distinct,
    Binding.image_position, analyzer, longLine, unusedFunction]

/-! ## Every order -/

namespace Config

variable {root root' : Element} {c : Config}

/-- One change of order leaves the configuration as it is. -/
theorem bind_of_reorders (reordered : Reorders root root') (distinct : root.DistinctNames)
    (bound : bind root = .ok c) : bind root' = .ok c := by
  obtain ⟨named, conforms, rfl⟩ := bind_eq_ok_iff.mp bound
  rw [bind_eq_ok_iff]
  cases reordered with
  | attributes reordered =>
      exact ⟨reordered.name.trans named, conforms.of_reorders reordered,
        ofBound_of_reorders reordered distinct conforms⟩
  | sections name attributes perm at_ =>
      exact ⟨named, conforms.of_perm perm,
        ofBound_of_perm conforms perm (Element.distinctNames_iff.mp distinct).1⟩

/-- Any number of them do. -/
theorem bind_ok_iff_of_reorders (reordered : Relation.ReflTransGen Reorders root root')
    (distinct : root.DistinctNames) : root'.DistinctNames ∧
      ∀ c, bind root' = .ok c ↔ bind root = .ok c := by
  induction reordered with
  | refl => exact ⟨distinct, fun _ => Iff.rfl⟩
  | tail _ step ih =>
      obtain ⟨before, same⟩ := ih
      have after := step.distinctNames before
      refine ⟨after, fun c => ?_⟩
      rw [← same]
      exact ⟨bind_of_reorders step.symm after, bind_of_reorders step before⟩

/-! ## Other positions -/

/-- Every setting has the same effect, and the same is said about those that make no sense, as
often. -/
structure SameEffect (c c' : Config) : Prop where
  failThreshold : c'.failThreshold = c.failThreshold
  enabled : c'.isRuleEnabled = c.isRuleEnabled
  severity : c'.ruleSeverity? = c.ruleSeverity?
  parallelism : c'.parallelism? = c.parallelism?
  excludePatterns : c'.excludePatterns = c.excludePatterns
  functionExcludes : c'.functionExcludes = c.functionExcludes
  includesPublic : c'.includesPublic = c.includesPublic
  maxLineLength : c'.maxLineLength = c.maxLineLength
  tabWidth : c'.tabWidth = c.tabWidth
  messages : (c'.validate.map (·.message)).Perm (c.validate.map (·.message))

section

variable (f : Option Position → Option Position) (c : Config)

theorem ruleSettings?_mapPositions : (c.mapPositions f).ruleSettings? = c.ruleSettings? := by
  funext rule
  rw [ruleSettings?, ruleSettings?, mapPositions]
  simp only [Option.map_map]
  rfl

theorem parallelism?_mapPositions : (c.mapPositions f).parallelism? = c.parallelism? := by
  rw [parallelism?, parallelism?, mapPositions]
  cases c.analyzer <;> rfl

theorem excludePatterns_mapPositions : (c.mapPositions f).excludePatterns = c.excludePatterns := by
  rw [excludePatterns, excludePatterns, mapPositions]
  simp only [Option.map_map, Function.comp_def, AnalyzerSection.mapPositions, List.map_map]
  rfl

theorem functionExcludes_mapPositions :
    (c.mapPositions f).functionExcludes = c.functionExcludes := by
  rw [functionExcludes, functionExcludes, mapPositions]
  simp only [Option.map_map, Function.comp_def, UnusedFunctionSection.mapPositions, List.map_map]
  rfl

theorem includesPublic_mapPositions : (c.mapPositions f).includesPublic = c.includesPublic := by
  rw [includesPublic, includesPublic, mapPositions]
  cases c.unusedFunction <;> rfl

theorem maxLineLength_mapPositions : (c.mapPositions f).maxLineLength = c.maxLineLength := by
  rw [maxLineLength, maxLineLength, mapPositions]
  cases c.longLine <;> rfl

theorem tabWidth_mapPositions : (c.mapPositions f).tabWidth = c.tabWidth := by
  rw [tabWidth, tabWidth, mapPositions]
  cases c.longLine <;> rfl

theorem mapPositions_id : c.mapPositions id = c := by
  have excludes : ExcludeEntry.mapPositions id = id := rfl
  have analyzer : AnalyzerSection.mapPositions id = id := by
    funext s
    rw [AnalyzerSection.mapPositions, excludes, List.map_id]
    rfl
  have unusedFunction : UnusedFunctionSection.mapPositions id = id := by
    funext s
    rw [UnusedFunctionSection.mapPositions, excludes, List.map_id]
    rfl
  have longLine : LongLineSection.mapPositions id = id := rfl
  rw [mapPositions, analyzer, longLine, unusedFunction, Option.map_id, Option.map_id, Option.map_id]
  rfl

theorem messages_mapPositions :
    (c.mapPositions f).issues.map (·.message) = c.issues.map (·.message) := by
  obtain ⟨raised, is⟩ := uniform_issues c
  have own : c.issues = _ := (congrArg issues c.mapPositions_id).symm.trans (is id)
  have moved : (c.mapPositions f).issues = _ := is f
  rw [moved, own, List.map_map, List.map_map]
  rfl

end

/-- Where the parts of a configuration stand has no effect. -/
theorem sameEffect_of_mapPositions {c c' : Config} {f : Option Position → Option Position}
    (same : c'.mapPositions f = c.mapPositions f) : SameEffect c c' where
  failThreshold := (congrArg failThreshold same :)
  enabled := by
    funext rule
    rw [isRuleEnabled, ← ruleSettings?_mapPositions f, same, ruleSettings?_mapPositions,
      isRuleEnabled]
  severity := by
    funext rule
    rw [ruleSeverity?, ← ruleSettings?_mapPositions f, same, ruleSettings?_mapPositions,
      ruleSeverity?]
  parallelism := by rw [← parallelism?_mapPositions f, same, parallelism?_mapPositions]
  excludePatterns := by rw [← excludePatterns_mapPositions f, same, excludePatterns_mapPositions]
  functionExcludes := by
    rw [← functionExcludes_mapPositions f, same, functionExcludes_mapPositions]
  includesPublic := by rw [← includesPublic_mapPositions f, same, includesPublic_mapPositions]
  maxLineLength := by rw [← maxLineLength_mapPositions f, same, maxLineLength_mapPositions]
  tabWidth := by rw [← tabWidth_mapPositions f, same, tabWidth_mapPositions]
  messages := by
    have sorted (d : Config) : (d.validate.map (·.message)).Perm (d.issues.map (·.message)) :=
      (List.mergeSort_perm d.issues _).map _
    have messages : c'.issues.map (·.message) = c.issues.map (·.message) := by
      rw [← messages_mapPositions f, same, messages_mapPositions]
    exact (sorted c').trans (messages ▸ (sorted c).symm)

/-- Trees that differ in positions alone are accepted alike, as configurations that differ in
positions alone. -/
theorem bind_of_bare {root other : Element} (same : other.bare = root.bare) :
    ((bind other).map (mapPositions fun _ => none)).mapError
        (Binding.Error.mapPositions fun _ => none) =
      ((bind root).map (mapPositions fun _ => none)).mapError
        (Binding.Error.mapPositions fun _ => none) := by
  rw [← bind_mapPositions, ← bind_mapPositions]
  exact congrArg bind same

theorem bind_ok_of_bare {root other : Element} (same : other.bare = root.bare) {c : Config}
    (bound : bind root = .ok c) : ∃ c', bind other = .ok c' ∧ SameEffect c c' := by
  have both := bind_of_bare same
  rw [bound] at both
  cases found : bind other with
  | error e =>
      rw [found] at both
      cases both
  | ok c' =>
      rw [found] at both
      exact ⟨c', rfl, sameEffect_of_mapPositions (Except.ok.inj both)⟩

/-- A document without two attributes of one name on one element is bound to the same configuration
whatever the order of its attributes and of its sections, every part of it where it stood. Wherever
else the parts then stand, the settings have the effect that they had, and validation finds as
much. -/
theorem bind_reordered (distinct : root.DistinctNames)
    (reordered : Relation.ReflTransGen Reorders root root') :
    (∀ c, bind root' = .ok c ↔ bind root = .ok c) ∧
      ∀ other : Element, other.bare = root'.bare →
        ((∃ c', bind other = .ok c') ↔ ∃ c, bind root = .ok c) ∧
        ∀ c c', bind root = .ok c → bind other = .ok c' → SameEffect c c' := by
  obtain ⟨_, same⟩ := bind_ok_iff_of_reorders reordered distinct
  have elsewhere {other : Element} (bare : other.bare = root'.bare) {c : Config}
      (bound : bind root = .ok c) : ∃ c', bind other = .ok c' ∧ SameEffect c c' :=
    bind_ok_of_bare bare ((same c).mpr bound)
  refine ⟨same, fun other bare => ⟨⟨?_, ?_⟩, fun c c' bound bound' => ?_⟩⟩
  · rintro ⟨c', bound'⟩
    obtain ⟨c, bound, _⟩ := bind_ok_of_bare bare.symm bound'
    exact ⟨c, (same c).mp bound⟩
  · rintro ⟨c, bound⟩
    obtain ⟨c', bound', _⟩ := elsewhere bare bound
    exact ⟨c', bound'⟩
  · obtain ⟨_, found, effect⟩ := elsewhere bare bound
    cases found.symm.trans bound'
    exact effect

/-- A section with two excludes in front of one with two numbers. -/
def excludesFirst : Element :=
  ⟨"config", [⟨"failOn", "warning"⟩], [
    ⟨"Analyzer", [⟨"parallelism", "0"⟩], [
      ⟨"Exclude", [⟨"pattern", "gen/**"⟩], [], some ⟨3, 5⟩⟩,
      ⟨"Exclude", [⟨"pattern", "old/**"⟩], [], some ⟨4, 5⟩⟩], some ⟨2, 3⟩⟩,
    ⟨"LongLine", [⟨"maxLineLength", "80"⟩, ⟨"tabWidth", "2"⟩], [], some ⟨6, 3⟩⟩], some ⟨1, 1⟩⟩

/-- The same with the sections, and the two numbers, the other way round. -/
def excludesLast : Element :=
  ⟨"config", [⟨"failOn", "warning"⟩], [
    ⟨"LongLine", [⟨"tabWidth", "2"⟩, ⟨"maxLineLength", "80"⟩], [], some ⟨6, 3⟩⟩,
    ⟨"Analyzer", [⟨"parallelism", "0"⟩], [
      ⟨"Exclude", [⟨"pattern", "gen/**"⟩], [], some ⟨3, 5⟩⟩,
      ⟨"Exclude", [⟨"pattern", "old/**"⟩], [], some ⟨4, 5⟩⟩], some ⟨2, 3⟩⟩], some ⟨1, 1⟩⟩

theorem bind_excludesLast :
    excludesFirst.DistinctNames ∧ Relation.ReflTransGen Reorders excludesFirst excludesLast ∧
      ∃ c, bind excludesFirst = .ok c ∧ c.excludePatterns = ["gen/**", "old/**"] ∧
        c.maxLineLength = 80 ∧ c.tabWidth = 2 ∧ bind excludesLast = .ok c ∧
        ∃ c', bind excludesLast.bare = .ok c' ∧ SameEffect c c' := by
  have distinct : excludesFirst.DistinctNames := by
    rw [Element.DistinctNames]
    decide
  have numbers : Reorders excludesFirst _ :=
    .attributes (.child _ _ [_] (.attributes _ (.swap _ _ []) _ _) [] _)
  have reordered : Relation.ReflTransGen Reorders excludesFirst excludesLast :=
    .tail (.single numbers) (.sections _ _ (.swap _ _ []) _)
  have bound : bind excludesFirst = .ok (ofBound (image Schema.config excludesFirst)) := rfl
  obtain ⟨same, elsewhere⟩ := bind_reordered distinct reordered
  obtain ⟨accepted, effect⟩ := elsewhere excludesLast.bare rfl
  obtain ⟨c', bound'⟩ := accepted.mpr ⟨_, bound⟩
  exact ⟨distinct, reordered, _, bound, rfl, rfl, rfl, (same _).mpr bound, c', bound',
    effect _ _ bound bound'⟩

end Config

end SourceLint
