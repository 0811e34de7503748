import Mathlib.Data.List.Forall2
import Mathlib.Data.List.Nodup
import SourceLint.Config
import SourceLint.Proofs.Binding.Conformance
import SourceLint.Proofs.Text.Decimal

/-! # A configuration and its element

A configuration can be written as an element: an attribute for each setting that is there, a
child for each section and for each exclude. Binding that element gives the configuration back.
And whatever element is bound, the configuration tells what the element says: every attribute,
section and exclude of the element is in it, and nothing is in it that the element does not say.
-/

namespace SourceLint

open Markup (Attribute Element)

/-! ## Writing -/

/-- The attribute of that name, if there is a value for it. -/
def Markup.attributeOf {α : Type} (name : String) (write : α → String) (value : Option α) :
    List Attribute :=
  (value.map fun a => ⟨name, write a⟩).toList

/-- A truth value as a literal. -/
def writeBoolean (b : Bool) : String :=
  if b then "true" else "false"

open Markup (attributeOf)

def RuleSettings.attributes (s : RuleSettings) : List Attribute :=
  attributeOf "enabled" writeBoolean s.enabled ++ attributeOf "severity" Severity.render s.severity

/-- The element of an exclude whose glob is the value of `field`. -/
def ExcludeEntry.toElement (field : String) (e : ExcludeEntry) : Element :=
  ⟨"Exclude", [⟨field, e.pattern⟩], [], e.position⟩

def AnalyzerSection.toElement (s : AnalyzerSection) : Element :=
  ⟨"Analyzer", attributeOf "parallelism" toString s.parallelism,
    s.excludes.map (ExcludeEntry.toElement "pattern"), s.position⟩

def LongLineSection.toElement (s : LongLineSection) : Element :=
  ⟨"LongLine", s.settings.attributes ++ attributeOf "maxLineLength" id s.maxLineLength ++
    attributeOf "tabWidth" id s.tabWidth, [], s.position⟩

def UnusedFunctionSection.toElement (s : UnusedFunctionSection) : Element :=
  ⟨"UnusedFunction",
    s.settings.attributes ++ attributeOf "includePublic" writeBoolean s.includePublic,
    s.excludes.map (ExcludeEntry.toElement "name"), s.position⟩

/-- The root element with what the configuration says, and nothing else. -/
def Config.toElement (c : Config) : Element :=
  ⟨"config", attributeOf "failOn" Severity.render c.failOn,
    (c.analyzer.map AnalyzerSection.toElement).toList ++
      (c.longLine.map LongLineSection.toElement).toList ++
      (c.unusedFunction.map UnusedFunctionSection.toElement).toList, c.position⟩

/-- The number of workers, if one is given, fits a signed 64-bit word. -/
def Config.FitsWord (c : Config) : Prop :=
  ∀ s ∈ c.analyzer, ∀ n ∈ s.parallelism, -(Text.halfWord : Int) ≤ n ∧ n < Text.halfWord

/-! ## Telling what an element says -/

/-- The truth value that a literal has. -/
def booleanOf? (raw : String) : Option Bool :=
  if Text.trim raw = "true" then some true
  else if Text.trim raw = "false" then some false
  else none

/-- The severity that a literal names. -/
def severityOf? (raw : String) : Option Severity :=
  Severity.parse? (Text.trim raw)

/-- A field is there where the element has an attribute of the name, and holds what its value
reads as. An element made by hand may have several of them, and then it is the last that counts. -/
structure Markup.Element.Gives {α : Type} (e : Element) (name : String)
    (read : String → Option α) (field : Option α) : Prop where
  present : field.isSome ↔ ∃ a ∈ e.attributes, a.name = name
  value : field = (e.lastAttribute? name).bind read
  only : (e.attributes.map (·.name)).Nodup → ∀ a ∈ e.attributes, a.name = name →
    field = read a.value

/-- A section is there where the element has a child of the name, and then it has one and the
section tells what that says. -/
def Markup.Element.HasSection {σ : Type} (e : Element) (name : String) (tells : Element → σ → Prop) :
    Option σ → Prop
  | none => ∀ child ∈ e.children, child.name ≠ name
  | some s => ∃ child, e.children.filter (·.name = name) = [child] ∧ tells child s

/-- The exclude tells what its element says, with the glob as it is written. -/
structure ExcludeEntry.Tells (field : String) (e : Element) (x : ExcludeEntry) : Prop where
  name : e.name = "Exclude"
  attributes : ∀ a ∈ e.attributes, a.name = field
  pattern : e.Gives field some (some x.pattern)
  children : e.children = []
  position : x.position = e.position

structure RuleSettings.Tells (e : Element) (s : RuleSettings) : Prop where
  enabled : e.Gives "enabled" booleanOf? s.enabled
  severity : e.Gives "severity" severityOf? s.severity

/-- The section has the attributes and the excludes of the element, these one for one. -/
structure AnalyzerSection.Tells (e : Element) (s : AnalyzerSection) : Prop where
  attributes : ∀ a ∈ e.attributes, a.name = "parallelism"
  parallelism : e.Gives "parallelism" Text.parseInteger s.parallelism
  excludes : List.Forall₂ (ExcludeEntry.Tells "pattern") e.children s.excludes
  position : s.position = e.position

structure LongLineSection.Tells (e : Element) (s : LongLineSection) : Prop where
  attributes : ∀ a ∈ e.attributes, a.name ∈ ["enabled", "severity", "maxLineLength", "tabWidth"]
  settings : s.settings.Tells e
  maxLineLength : e.Gives "maxLineLength" some s.maxLineLength
  tabWidth : e.Gives "tabWidth" some s.tabWidth
  children : e.children = []
  position : s.position = e.position

structure UnusedFunctionSection.Tells (e : Element) (s : UnusedFunctionSection) : Prop where
  attributes : ∀ a ∈ e.attributes, a.name ∈ ["enabled", "severity", "includePublic"]
  settings : s.settings.Tells e
  includePublic : e.Gives "includePublic" booleanOf? s.includePublic
  excludes : List.Forall₂ (ExcludeEntry.Tells "name") e.children s.excludes
  position : s.position = e.position

/-- The configuration has the threshold and the sections of the element, and the element has
nothing else. -/
structure Config.Tells (e : Element) (c : Config) : Prop where
  name : e.name = "config"
  attributes : ∀ a ∈ e.attributes, a.name = "failOn"
  failOn : e.Gives "failOn" severityOf? c.failOn
  children : ∀ child ∈ e.children, child.name ∈ ["Analyzer", "LongLine", "UnusedFunction"]
  analyzer : e.HasSection "Analyzer" AnalyzerSection.Tells c.analyzer
  longLine : e.HasSection "LongLine" LongLineSection.Tells c.longLine
  unusedFunction : e.HasSection "UnusedFunction" UnusedFunctionSection.Tells c.unusedFunction
  position : c.position = e.position

namespace Binding

/-! ## Fields of an image -/

theorem convert_boolean (raw : String) :
    convert raw .boolean = (booleanOf? raw).map .boolean := by
  rw [convert, booleanOf?]
  split
  · rfl
  · split <;> rfl

theorem lastAttribute?_of_nodup {e : Element} (distinct : (e.attributes.map (·.name)).Nodup)
    {a : Attribute} (member : a ∈ e.attributes) : e.lastAttribute? a.name = some a.value := by
  obtain ⟨b, found⟩ : ∃ b, e.attributes.reverse.find? (·.name = a.name) = some b := by
    rw [← Option.isSome_iff_exists, List.find?_isSome]
    exact ⟨a, List.mem_reverse.mpr member, by simp⟩
  have named : b.name = a.name := by simpa using List.find?_some found
  have there : b ∈ e.attributes := List.mem_reverse.mp (List.mem_of_find?_eq_some found)
  obtain rfl : b = a := List.inj_on_of_nodup_map distinct there member named
  rw [Element.lastAttribute?, found, Option.map_some]

variable {s : Schema} {e : Element} {name : String} {field : Schema.Field}

/-- What conforms has no faulty attribute. -/
theorem Conforms.attributes (conforms : Conforms s e) :
    e.attributes.filterMap (attributeFault? s e.position) = [] := by
  obtain ⟨converts⟩ := conforms
  exact List.filterMap_eq_nil_iff.mpr fun a member =>
    attributeFault?_eq_none_iff.mpr (converts a member)

theorem Conforms.image_value? (conforms : Conforms s e) (found : s.field? name = some field) :
    (image s e).value? name = (e.lastAttribute? name).bind (convert · field.kind) := by
  rw [Binding.image_value? conforms.attributes, ← lastAttribute?_bind, found]
  rfl

/-- A field that reads the image as the schema declares it is given by the element. -/
theorem Conforms.gives {α : Type} {read : String → Option α} {value : Option α}
    (conforms : Conforms s e) (found : s.field? name = some field)
    (present : value.isSome = (image s e).has name field.kind)
    (reads : value = (e.lastAttribute? name).bind read) : e.Gives name read value where
  present := by rw [present, image_has_iff conforms.attributes found, eq_self, true_and]
  value := reads
  only distinct a member named := by
    rw [reads, ← named, lastAttribute?_of_nodup distinct member, Option.bind_some]

theorem Conforms.gives_text (conforms : Conforms s e) (found : s.field? name = some field)
    (kind : field.kind = .text) : e.Gives name some ((image s e).text? name) := by
  refine conforms.gives found (by rw [kind]; rfl) ?_
  rw [Bound.text?, conforms.image_value? found, kind]
  cases e.lastAttribute? name <;> rfl

theorem Conforms.gives_integer (conforms : Conforms s e) (found : s.field? name = some field)
    (kind : field.kind = .integer) :
    e.Gives name Text.parseInteger ((image s e).integer? name) := by
  refine conforms.gives found (by rw [kind]; rfl) ?_
  rw [Bound.integer?, conforms.image_value? found, kind]
  cases e.lastAttribute? name with
  | none => rfl
  | some raw =>
      rw [Option.bind_some, Option.bind_some, convert]
      cases Text.parseInteger raw <;> rfl

theorem Conforms.gives_boolean (conforms : Conforms s e) (found : s.field? name = some field)
    (kind : field.kind = .boolean) : e.Gives name booleanOf? ((image s e).boolean? name) := by
  refine conforms.gives found (by rw [kind]; rfl) ?_
  rw [Bound.boolean?, conforms.image_value? found, kind]
  cases e.lastAttribute? name with
  | none => rfl
  | some raw =>
      rw [Option.bind_some, Option.bind_some, convert_boolean]
      cases booleanOf? raw <;> rfl

theorem Conforms.gives_severity (conforms : Conforms s e) (found : s.field? name = some field)
    (kind : field.kind = .severity) : e.Gives name severityOf? ((image s e).severity? name) := by
  refine conforms.gives found (by rw [kind]; rfl) ?_
  rw [Bound.severity?, conforms.image_value? found, kind]
  cases e.lastAttribute? name with
  | none => rfl
  | some raw =>
      rw [Option.bind_some, Option.bind_some, convert, ← severityOf?]
      cases severityOf? raw <;> rfl

/-- A conforming element has declared attributes only. -/
theorem Conforms.name_mem (conforms : Conforms s e) {a : Attribute} (member : a ∈ e.attributes) :
    a.name ∈ s.fields.map (·.name) := by
  obtain ⟨converts⟩ := conforms
  obtain ⟨field, _, found, _⟩ := converts a member
  rw [← field?_name found]
  exact List.mem_map_of_mem (List.mem_of_find?_eq_some found)

/-! ## Children of an image -/

theorem Conforms.declared (conforms : Conforms s e) {child : Element} (member : child ∈ e.children) :
    ∃ inner, s.child? child.name = some inner := by
  obtain ⟨_, _, declared⟩ := conforms
  exact declared child member

theorem Conforms.child_mem (conforms : Conforms s e) {child : Element}
    (member : child ∈ e.children) : child.name ∈ s.children.map (·.name) := by
  obtain ⟨inner, found⟩ := conforms.declared member
  rw [← child?_name found]
  exact List.mem_map_of_mem (List.mem_of_find?_eq_some found)

theorem Conforms.inside (conforms : Conforms s e) {child : Element} (member : child ∈ e.children)
    {inner : Schema} (found : s.child? child.name = some inner) : Conforms inner child := by
  obtain ⟨_, _, _, _, _, inside⟩ := conforms
  exact inside child member inner found

theorem Conforms.single (conforms : Conforms s e) {inner : Schema} (found : s.child? name = some inner)
    (once : inner.repeatable = false) : (e.children.filter (·.name = name)).length ≤ 1 := by
  obtain ⟨_, _, _, single⟩ := conforms
  rw [← List.countP_eq_length_filter]
  exact single name inner found once

theorem filter_imageOfEach {inner : Schema} {children : List Element}
    (declared : ∀ child ∈ children, ∃ inner, s.child? child.name = some inner)
    (found : s.child? name = some inner) :
    (imageOfEach s children).filter (·.name = name) =
      (children.filter (·.name = name)).map (image inner) := by
  induction children with
  | nil => rfl
  | cons child rest ih =>
      obtain ⟨other, known⟩ := declared child List.mem_cons_self
      have later := ih fun c member => declared c (List.mem_cons_of_mem child member)
      rw [imageOfEach_cons known, List.filter_cons, List.filter_cons, image_name, child?_name known,
        later]
      by_cases same : child.name = name
      · subst same
        obtain rfl := Option.some.inj (known.symm.trans found)
        simp
      · simp [same]

/-- The children of an image that have a name are the images of the children of that name. -/
theorem Conforms.childrenNamed (conforms : Conforms s e) {inner : Schema}
    (found : s.child? name = some inner) :
    (image s e).childrenNamed name = (e.children.filter (·.name = name)).map (image inner) := by
  rw [Bound.childrenNamed, image_children,
    filter_imageOfEach (fun child member => conforms.declared member) found]

/-- What is made of the image of a child is a section of the element. -/
theorem Conforms.hasSection {σ : Type} {tells : Element → σ → Prop} {make : Bound → σ}
    (conforms : Conforms s e) {inner : Schema} (found : s.child? name = some inner)
    (once : inner.repeatable = false)
    (made : ∀ child, Conforms inner child → tells child (make (image inner child))) :
    e.HasSection name tells (((image s e).child? name).map make) := by
  have single := conforms.single found once
  have named : (image s e).child? name = ((image s e).childrenNamed name).head? :=
    List.head?_filter.symm
  rw [named, conforms.childrenNamed found]
  cases here : e.children.filter (·.name = name) with
  | nil =>
      intro child member same
      have absent := List.filter_eq_nil_iff.mp here child member
      exact absurd (by simpa using same) absent
  | cons child more =>
      rw [here, List.length_cons] at single
      obtain rfl : more = [] := List.eq_nil_of_length_eq_zero (by omega)
      have kept : child ∈ e.children.filter (·.name = name) := here ▸ List.mem_singleton_self child
      obtain ⟨member, named⟩ := List.mem_filter.mp kept
      refine ⟨child, here, made child (conforms.inside member ?_)⟩
      rw [of_decide_eq_true named, found]

/-- Children that can only have one name are each made into an entry. -/
theorem Conforms.forall₂_children {σ : Type} {tells : Element → σ → Prop} {make : Bound → σ}
    (conforms : Conforms s e) {inner : Schema} (found : s.child? name = some inner)
    (all : ∀ child ∈ e.children, child.name = name)
    (made : ∀ child, child.name = name → Conforms inner child →
      tells child (make (image inner child))) :
    List.Forall₂ tells e.children (((image s e).childrenNamed name).map make) := by
  have kept : e.children.filter (·.name = name) = e.children :=
    List.filter_eq_self.mpr fun child member => by simpa using all child member
  rw [conforms.childrenNamed found, kept, List.map_map, List.forall₂_map_right_iff,
    List.forall₂_same]
  intro child member
  refine made child (all child member) (conforms.inside member ?_)
  rw [all child member, found]

end Binding

/-! ## What binding keeps -/

open Binding (Conforms image)

theorem ExcludeEntry.tells_ofBound {schema : Schema} {field : String} {e : Element}
    (fields : schema.fields = [Schema.requiredField field .text]) (leaf : schema.children = [])
    (named : e.name = "Exclude") (conforms : Conforms schema e) :
    ExcludeEntry.Tells field e (.ofBound field (image schema e)) := by
  have found : schema.field? field = some (Schema.requiredField field .text) := by
    rw [Schema.field?, fields, List.find?_cons_of_pos]
    exact decide_eq_true rfl
  have given := conforms.gives_text found rfl
  constructor
  case name => exact named
  case attributes =>
    intro a member
    have declared := conforms.name_mem member
    rw [fields] at declared
    exact List.mem_singleton.mp declared
  case pattern =>
    -- The glob is required, so the default that stands in for a missing one is never used.
    have there : ∃ a ∈ e.attributes, a.name = field := by
      obtain ⟨_, complete⟩ := conforms
      exact complete (Schema.requiredField field .text) (by rw [fields]; exact List.mem_cons_self) rfl
    obtain ⟨glob, text⟩ := Option.isSome_iff_exists.mp (given.present.mpr there)
    rw [ExcludeEntry.ofBound, text, Option.getD_some, ← text]
    exact given
  case children =>
    refine List.eq_nil_iff_forall_not_mem.mpr fun child member => ?_
    simpa [leaf] using conforms.child_mem member
  case position => exact Binding.image_position schema e

theorem RuleSettings.tells_ofBound {schema : Schema} {e : Element} (conforms : Conforms schema e)
    (enabled : schema.field? "enabled" = some (Schema.optionalField "enabled" .boolean))
    (severity : schema.field? "severity" = some (Schema.optionalField "severity" .severity)) :
    RuleSettings.Tells e (.ofBound (image schema e)) where
  enabled := conforms.gives_boolean enabled rfl
  severity := conforms.gives_severity severity rfl

theorem AnalyzerSection.tells_ofBound {e : Element} (conforms : Conforms Schema.analyzer e) :
    AnalyzerSection.Tells e (.ofBound (image Schema.analyzer e)) where
  attributes _ member := List.mem_singleton.mp (conforms.name_mem member)
  parallelism := conforms.gives_integer rfl rfl
  excludes := conforms.forall₂_children rfl
    (fun _ member => List.mem_singleton.mp (conforms.child_mem member))
    fun _ named inside => ExcludeEntry.tells_ofBound rfl rfl named inside
  position := Binding.image_position Schema.analyzer e

theorem LongLineSection.tells_ofBound {e : Element} (conforms : Conforms Schema.longLine e) :
    LongLineSection.Tells e (.ofBound (image Schema.longLine e)) where
  attributes _ member := conforms.name_mem member
  settings := RuleSettings.tells_ofBound conforms rfl rfl
  maxLineLength := conforms.gives_text rfl rfl
  tabWidth := conforms.gives_text rfl rfl
  children := List.eq_nil_iff_forall_not_mem.mpr fun _ member =>
    List.not_mem_nil (conforms.child_mem member)
  position := Binding.image_position Schema.longLine e

theorem UnusedFunctionSection.tells_ofBound {e : Element}
    (conforms : Conforms Schema.unusedFunction e) :
    UnusedFunctionSection.Tells e (.ofBound (image Schema.unusedFunction e)) where
  attributes _ member := conforms.name_mem member
  settings := RuleSettings.tells_ofBound conforms rfl rfl
  includePublic := conforms.gives_boolean rfl rfl
  excludes := conforms.forall₂_children rfl
    (fun _ member => List.mem_singleton.mp (conforms.child_mem member))
    fun _ named inside => ExcludeEntry.tells_ofBound rfl rfl named inside
  position := Binding.image_position Schema.unusedFunction e

namespace Config

/-- Binding succeeds where the element is a conforming one of the root's name, and gives what is
made of its image. -/
theorem bind_eq_ok_iff {e : Element} {c : Config} :
    bind e = .ok c ↔
      e.name = "config" ∧ Conforms Schema.config e ∧ ofBound (image Schema.config e) = c := by
  have root : Schema.config.name = "config" := rfl
  rw [bind, Binding.bind, root]
  by_cases named : e.name = "config"
  · rw [if_pos named, Binding.bindNode_eq, and_iff_right named, ← Binding.faults_eq_nil_iff]
    cases Binding.faults Schema.config e <;> simp [Except.map]
  · simp [named, Except.map]

theorem tells_of_bind {e : Element} {c : Config} (bound : bind e = .ok c) : c.Tells e := by
  obtain ⟨named, conforms, rfl⟩ := bind_eq_ok_iff.mp bound
  constructor
  case name => exact named
  case attributes => exact fun a member => List.mem_singleton.mp (conforms.name_mem member)
  case failOn => exact conforms.gives_severity rfl rfl
  case children => exact fun child member => conforms.child_mem member
  case analyzer =>
    exact conforms.hasSection rfl rfl fun _ inside => AnalyzerSection.tells_ofBound inside
  case longLine =>
    exact conforms.hasSection rfl rfl fun _ inside => LongLineSection.tells_ofBound inside
  case unusedFunction =>
    exact conforms.hasSection rfl rfl fun _ inside => UnusedFunctionSection.tells_ofBound inside
  case position => exact Binding.image_position Schema.config e

end Config

/-! ## Reading back what is written -/

namespace Markup

variable {α σ : Type} {e : Element} {name : String}

@[simp]
theorem lastAttribute?_attributeOf (tag name other : String) (write : α → String)
    (value : Option α) (children : List Element) (at_ : Option Position) :
    (⟨tag, attributeOf name write value, children, at_⟩ : Element).lastAttribute? other =
      if name = other then value.map write else none := by
  rw [Element.lastAttribute?]
  cases value with
  | none => simp [attributeOf]
  | some a => by_cases same : name = other <;> simp [attributeOf, same]

@[simp]
theorem lastAttribute?_append (tag name : String) (first second : List Attribute)
    (children : List Element) (at_ : Option Position) :
    (⟨tag, first ++ second, children, at_⟩ : Element).lastAttribute? name =
      ((⟨tag, second, children, at_⟩ : Element).lastAttribute? name).or
        ((⟨tag, first, children, at_⟩ : Element).lastAttribute? name) := by
  simp only [Element.lastAttribute?, List.reverse_append, List.find?_append, Option.map_or]

theorem mem_attributeOf {a : Attribute} {write : α → String} {value : Option α} :
    a ∈ attributeOf name write value ↔ ∃ v ∈ value, a = ⟨name, write v⟩ := by
  rw [attributeOf, Option.mem_toList, Option.map_eq_some_iff]
  simp only [Option.mem_def, eq_comm (a := a)]

/-- A field that is given by an attribute as it is written holds the value written. -/
theorem Element.Gives.eq_of_written {read : String → Option α} {write : α → String}
    {field value : Option α} (gives : e.Gives name read field)
    (written : e.lastAttribute? name = value.map write)
    (reads : ∀ v ∈ value, read (write v) = some v) : field = value := by
  rw [gives.value, written]
  cases value with
  | none => rfl
  | some v => exact reads v rfl

/-- A section of an element as it is written is the section written. -/
theorem Element.HasSection.eq_of_written {tells : Element → σ → Prop} {write : σ → Element}
    {found written : Option σ} (has : e.HasSection name tells found)
    (children : e.children.filter (·.name = name) = (written.map write).toList)
    (reads : ∀ s ∈ written, ∀ s', tells (write s) s' → s' = s) : found = written := by
  cases found with
  | none =>
      have absent : e.children.filter (·.name = name) = [] :=
        List.filter_eq_nil_iff.mpr fun child member => by simpa using has child member
      rw [absent] at children
      cases written with
      | none => rfl
      | some s => cases children
  | some s' =>
      obtain ⟨child, only, tells⟩ := has
      rw [only] at children
      cases written with
      | none => cases children
      | some s =>
          obtain rfl : child = write s := List.singleton_inj.mp children
          rw [reads s rfl s' tells]

end Markup

theorem booleanOf?_writeBoolean (b : Bool) : booleanOf? (writeBoolean b) = some b := by
  cases b <;> rfl

theorem severityOf?_render (s : Severity) : severityOf? s.render = some s := by
  cases s <;> rfl

theorem ExcludeEntry.eq_of_tells {field : String} {x x' : ExcludeEntry}
    (tells : Tells field (x.toElement field) x') : x' = x := by
  have pattern : some x'.pattern = some x.pattern :=
    tells.pattern.only (List.nodup_singleton _) _ List.mem_cons_self rfl
  have position : x'.position = x.position := tells.position
  cases x
  cases x'
  simp_all

theorem ExcludeEntry.eq_of_forall₂_tells {field : String} {xs xs' : List ExcludeEntry}
    (tells : List.Forall₂ (Tells field) (xs.map (toElement field)) xs') : xs' = xs := by
  rw [List.forall₂_map_left_iff] at tells
  have same : List.Forall₂ (· = ·) xs xs' := tells.imp fun _ _ tells => (eq_of_tells tells).symm
  rw [List.forall₂_eq_eq_eq] at same
  exact same.symm

theorem AnalyzerSection.eq_of_tells {s s' : AnalyzerSection}
    (fits : ∀ n ∈ s.parallelism, -(Text.halfWord : Int) ≤ n ∧ n < Text.halfWord)
    (tells : Tells s.toElement s') : s' = s := by
  have written : s.toElement.lastAttribute? "parallelism" = s.parallelism.map toString := by
    simp [toElement]
  have parallelism := tells.parallelism.eq_of_written written fun n given =>
    Text.parseInteger_toString (fits n given).1 (fits n given).2
  have excludes := ExcludeEntry.eq_of_forall₂_tells tells.excludes
  have position : s'.position = s.position := tells.position
  cases s
  cases s'
  simp_all

theorem RuleSettings.eq_of_tells {e : Element} {s s' : RuleSettings} (tells : Tells e s')
    (enabled : e.lastAttribute? "enabled" = s.enabled.map writeBoolean)
    (severity : e.lastAttribute? "severity" = s.severity.map Severity.render) : s' = s := by
  have first := tells.enabled.eq_of_written enabled fun b _ => booleanOf?_writeBoolean b
  have second := tells.severity.eq_of_written severity fun level _ => severityOf?_render level
  cases s
  cases s'
  simp_all

theorem LongLineSection.eq_of_tells {s s' : LongLineSection} (tells : Tells s.toElement s') :
    s' = s := by
  have settings : s'.settings = s.settings := RuleSettings.eq_of_tells tells.settings
    (by simp [toElement, RuleSettings.attributes]) (by simp [toElement, RuleSettings.attributes])
  have maxLineLength : s.toElement.lastAttribute? "maxLineLength" = s.maxLineLength.map id := by
    simp [toElement, RuleSettings.attributes]
  have tabWidth : s.toElement.lastAttribute? "tabWidth" = s.tabWidth.map id := by
    simp [toElement, RuleSettings.attributes]
  have first := tells.maxLineLength.eq_of_written maxLineLength fun _ _ => rfl
  have second := tells.tabWidth.eq_of_written tabWidth fun _ _ => rfl
  have position : s'.position = s.position := tells.position
  cases s
  cases s'
  simp_all

theorem UnusedFunctionSection.eq_of_tells {s s' : UnusedFunctionSection}
    (tells : Tells s.toElement s') : s' = s := by
  have settings : s'.settings = s.settings := RuleSettings.eq_of_tells tells.settings
    (by simp [toElement, RuleSettings.attributes]) (by simp [toElement, RuleSettings.attributes])
  have written : s.toElement.lastAttribute? "includePublic" = s.includePublic.map writeBoolean := by
    simp [toElement, RuleSettings.attributes]
  have includePublic := tells.includePublic.eq_of_written written
    fun b _ => booleanOf?_writeBoolean b
  have excludes := ExcludeEntry.eq_of_forall₂_tells tells.excludes
  have position : s'.position = s.position := tells.position
  cases s
  cases s'
  simp_all

/-- The children of a root element, as it is written, that have the name of a section. -/
theorem Config.filter_toElement (c : Config) :
    c.toElement.children.filter (·.name = "Analyzer") =
        (c.analyzer.map AnalyzerSection.toElement).toList ∧
      c.toElement.children.filter (·.name = "LongLine") =
        (c.longLine.map LongLineSection.toElement).toList ∧
      c.toElement.children.filter (·.name = "UnusedFunction") =
        (c.unusedFunction.map UnusedFunctionSection.toElement).toList := by
  cases analyzer : c.analyzer <;> cases longLine : c.longLine <;>
    cases unusedFunction : c.unusedFunction <;>
    simp [toElement, analyzer, longLine, unusedFunction, AnalyzerSection.toElement,
      LongLineSection.toElement, UnusedFunctionSection.toElement]

theorem Config.eq_of_tells {c c' : Config} (fits : c.FitsWord) (tells : Tells c.toElement c') :
    c' = c := by
  obtain ⟨ofAnalyzer, ofLongLine, ofUnusedFunction⟩ := c.filter_toElement
  have written : c.toElement.lastAttribute? "failOn" = c.failOn.map Severity.render := by
    simp [toElement]
  have failOn := tells.failOn.eq_of_written written fun level _ => severityOf?_render level
  have analyzer := tells.analyzer.eq_of_written ofAnalyzer fun s there _ tells =>
    AnalyzerSection.eq_of_tells (fits s there) tells
  have longLine := tells.longLine.eq_of_written ofLongLine fun _ _ _ tells =>
    LongLineSection.eq_of_tells tells
  have unusedFunction := tells.unusedFunction.eq_of_written ofUnusedFunction fun _ _ _ tells =>
    UnusedFunctionSection.eq_of_tells tells
  have position : c'.position = c.position := tells.position
  cases c
  cases c'
  simp_all

/-! ## What is written conforms -/

namespace Binding

variable {s : Schema} {name : String} {field : Schema.Field}

/-- The attribute is declared and its value converts. -/
def Converts (s : Schema) (a : Attribute) : Prop :=
  ∃ field value, s.field? a.name = some field ∧ convert a.value field.kind = some value

theorem converts_attributeOf {α : Type} {write : α → String} {value : Option α}
    (found : s.field? name = some field)
    (reads : ∀ v ∈ value, (convert (write v) field.kind).isSome) :
    ∀ a ∈ attributeOf name write value, Converts s a := by
  intro a member
  obtain ⟨v, there, rfl⟩ := Markup.mem_attributeOf.mp member
  obtain ⟨read, converted⟩ := Option.isSome_iff_exists.mp (reads v there)
  exact ⟨field, read, found, converted⟩

theorem isSome_convert_writeBoolean (b : Bool) : (convert (writeBoolean b) .boolean).isSome := by
  rw [convert_boolean, booleanOf?_writeBoolean]
  rfl

theorem isSome_convert_render (level : Severity) : (convert level.render .severity).isSome := by
  cases level <;> rfl

theorem isSome_convert_toString {n : Int} (low : -(Text.halfWord : Int) ≤ n)
    (high : n < Text.halfWord) : (convert (toString n) .integer).isSome := by
  rw [convert, Text.parseInteger_toString low high]
  rfl

/-- An element conforms where nothing is required and its children are of one repeatable
kind. -/
theorem conforms_of_repeatable {inner : Schema} {e : Element}
    (optional : ∀ field ∈ s.fields, field.required = false) (unneeded : s.requiredChildren = [])
    (repeats : ∀ name' inner', s.child? name' = some inner' → inner'.repeatable = true)
    (found : s.child? name = some inner) (converts : ∀ a ∈ e.attributes, Converts s a)
    (children : ∀ child ∈ e.children, child.name = name ∧ Conforms inner child) :
    Conforms s e := by
  refine .intro converts ?_ ?_ ?_ ?_ ?_
  · intro field member required
    rw [optional field member] at required
    cases required
  · intro child member
    exact ⟨inner, by rw [(children child member).1, found]⟩
  · intro name' inner' declared once
    rw [repeats name' inner' declared] at once
    cases once
  · rw [unneeded]
    exact List.forall_mem_nil _
  · intro child member inner' declared
    rw [(children child member).1, found] at declared
    obtain rfl := Option.some.inj declared
    exact (children child member).2

/-- An element without children conforms where its attributes do and no child is required. -/
theorem conforms_leaf {e : Element} (leaf : e.children = []) (unneeded : s.requiredChildren = [])
    (converts : ∀ a ∈ e.attributes, Converts s a)
    (complete : ∀ field ∈ s.fields, field.required = true → ∃ a ∈ e.attributes, a.name = field.name) :
    Conforms s e := by
  refine .intro converts complete ?_ ?_ ?_ ?_
  · rw [leaf]
    exact List.forall_mem_nil _
  · intro name inner declared once
    rw [leaf]
    exact Nat.zero_le 1
  · rw [unneeded]
    exact List.forall_mem_nil _
  · rw [leaf]
    exact List.forall_mem_nil _

theorem conforms_exclude {schema : Schema} {field : String}
    (fields : schema.fields = [Schema.requiredField field .text])
    (unneeded : schema.requiredChildren = []) (x : ExcludeEntry) :
    Conforms schema (x.toElement field) := by
  have found : schema.field? field = some (Schema.requiredField field .text) := by
    rw [Schema.field?, fields, List.find?_cons_of_pos]
    exact decide_eq_true rfl
  refine conforms_leaf rfl unneeded ?_ ?_
  · intro a member
    obtain rfl := List.mem_singleton.mp member
    exact ⟨_, .text x.pattern, found, rfl⟩
  · intro declared member _
    rw [fields] at member
    obtain rfl := List.mem_singleton.mp member
    exact ⟨_, List.mem_cons_self, rfl⟩

theorem child?_singleton {inner found : Schema} (only : s.children = [inner]) {name' : String}
    (declared : s.child? name' = some found) : found = inner := by
  have member := List.mem_of_find?_eq_some declared
  rw [only] at member
  exact List.mem_singleton.mp member

theorem conforms_analyzer {section_ : AnalyzerSection}
    (fits : ∀ n ∈ section_.parallelism, -(Text.halfWord : Int) ≤ n ∧ n < Text.halfWord) :
    Conforms Schema.analyzer section_.toElement := by
  have found : Schema.analyzer.child? "Exclude" = some Schema.analyzerExclude := rfl
  refine conforms_of_repeatable (by decide) rfl ?_ found ?_ ?_
  · intro name' inner' declared
    rw [child?_singleton rfl declared]
    rfl
  · exact converts_attributeOf rfl fun n given =>
      isSome_convert_toString (fits n given).1 (fits n given).2
  · intro child member
    obtain ⟨x, _, rfl⟩ := List.mem_map.mp member
    exact ⟨rfl, conforms_exclude rfl rfl x⟩

theorem converts_ruleSettings (settings : RuleSettings)
    (enabled : s.field? "enabled" = some (Schema.optionalField "enabled" .boolean))
    (severity : s.field? "severity" = some (Schema.optionalField "severity" .severity)) :
    ∀ a ∈ settings.attributes, Converts s a := by
  rw [RuleSettings.attributes, List.forall_mem_append]
  exact ⟨converts_attributeOf enabled fun b _ => isSome_convert_writeBoolean b,
    converts_attributeOf severity fun level _ => isSome_convert_render level⟩

theorem conforms_longLine (section_ : LongLineSection) :
    Conforms Schema.longLine section_.toElement := by
  have optional : ∀ field ∈ Schema.longLine.fields, field.required = false := by decide
  refine conforms_leaf rfl rfl ?_ fun field member required => ?_
  · simp only [LongLineSection.toElement, List.forall_mem_append]
    exact ⟨⟨converts_ruleSettings section_.settings rfl rfl,
      converts_attributeOf rfl fun _ _ => rfl⟩, converts_attributeOf rfl fun _ _ => rfl⟩
  · rw [optional field member] at required
    cases required

theorem conforms_unusedFunction (section_ : UnusedFunctionSection) :
    Conforms Schema.unusedFunction section_.toElement := by
  have found : Schema.unusedFunction.child? "Exclude" = some Schema.unusedFunctionExclude := rfl
  refine conforms_of_repeatable (by decide) rfl ?_ found ?_ ?_
  · intro name' inner' declared
    rw [child?_singleton rfl declared]
    rfl
  · simp only [UnusedFunctionSection.toElement, List.forall_mem_append]
    exact ⟨converts_ruleSettings section_.settings rfl rfl,
      converts_attributeOf rfl fun b _ => isSome_convert_writeBoolean b⟩
  · intro child member
    obtain ⟨x, _, rfl⟩ := List.mem_map.mp member
    exact ⟨rfl, conforms_exclude rfl rfl x⟩

/-- Each child of a root element, as it is written, stands under its own name and conforms to
the schema of that name. -/
theorem conforms_section {c : Config} (fits : c.FitsWord) {child : Element}
    (member : child ∈ c.toElement.children) :
    ∃ inner ∈ Schema.config.children, inner.name = child.name ∧ Conforms inner child := by
  simp only [Config.toElement, List.mem_append, Option.mem_toList, Option.map_eq_some_iff] at member
  rcases member with (⟨written, there, rfl⟩ | ⟨written, there, rfl⟩) | ⟨written, there, rfl⟩
  · exact ⟨Schema.analyzer, by simp [Schema.config], rfl, conforms_analyzer (fits written there)⟩
  · exact ⟨Schema.longLine, by simp [Schema.config], rfl, conforms_longLine written⟩
  · exact ⟨Schema.unusedFunction, by simp [Schema.config], rfl, conforms_unusedFunction written⟩

theorem child?_config {inner : Schema} (member : inner ∈ Schema.config.children) :
    Schema.config.child? inner.name = some inner := by
  simp only [Schema.config, List.mem_cons, List.not_mem_nil, or_false] at member
  rcases member with rfl | rfl | rfl <;> rfl

theorem countP_toElement_le (c : Config) {inner : Schema}
    (member : inner ∈ Schema.config.children) :
    c.toElement.children.countP (·.name = inner.name) ≤ 1 := by
  have atMostOne : ∀ (section_ : Option Element), section_.toList.length ≤ 1 := by
    rintro (_ | _)
    · exact Nat.zero_le 1
    · exact Nat.le_refl 1
  obtain ⟨ofAnalyzer, ofLongLine, ofUnusedFunction⟩ := c.filter_toElement
  rw [List.countP_eq_length_filter]
  simp only [Schema.config, List.mem_cons, List.not_mem_nil, or_false] at member
  rcases member with rfl | rfl | rfl
  · exact ofAnalyzer ▸ atMostOne _
  · exact ofLongLine ▸ atMostOne _
  · exact ofUnusedFunction ▸ atMostOne _

theorem conforms_config {c : Config} (fits : c.FitsWord) :
    Conforms Schema.config c.toElement := by
  refine .intro ?_ ?_ ?_ ?_ ?_ ?_
  · exact converts_attributeOf rfl fun level _ => isSome_convert_render level
  · intro field member required
    obtain rfl := List.mem_singleton.mp member
    cases required
  · intro child member
    obtain ⟨inner, declared, named, _⟩ := conforms_section fits member
    exact ⟨inner, named ▸ child?_config declared⟩
  · intro name inner found _
    rw [← child?_name found]
    exact countP_toElement_le c (List.mem_of_find?_eq_some found)
  · exact List.forall_mem_nil _
  · intro child member inner found
    obtain ⟨own, declared, named, conforms⟩ := conforms_section fits member
    rw [← named, child?_config declared] at found
    exact Option.some.inj found ▸ conforms

end Binding

/-! ## Nothing is lost -/

/-- What a configuration says is written into an element and read back as it was, with every
position, if its number of workers is one of 64 bits. And a configuration that some element is
bound to tells what that element says, no more and no less. -/
theorem Config.bind_lossless :
    (∀ c : Config, c.FitsWord → bind c.toElement = .ok c) ∧
      ∀ e (c : Config), bind e = .ok c → c.Tells e := by
  constructor
  case left =>
    intro c fits
    have bound : bind c.toElement = .ok (ofBound (Binding.image Schema.config c.toElement)) :=
      bind_eq_ok_iff.mpr ⟨rfl, Binding.conforms_config fits, rfl⟩
    rw [eq_of_tells fits (tells_of_bind bound)] at bound
    exact bound
  case right => exact fun e c bound => tells_of_bind bound

/-- The smallest number of 64 bits, a glob given twice, and a bound that is no number. -/
def Config.crowded : Config where
  failOn := some .warning
  analyzer := some ⟨some (-9223372036854775808), [⟨"old/**", some ⟨3, 5⟩⟩, ⟨" ", none⟩,
    ⟨"old/**", some ⟨5, 5⟩⟩], some ⟨2, 3⟩⟩
  longLine := some ⟨⟨some false, none⟩, some "wide\n", none, some ⟨7, 3⟩⟩
  unusedFunction := some ⟨⟨none, some .error⟩, some true, [⟨"", some ⟨9, 5⟩⟩], none⟩
  position := some ⟨1, 1⟩

/-- A root made by hand, its values padded and its threshold given twice. -/
def Markup.padded : Element :=
  ⟨"config", [⟨"failOn", "error"⟩, ⟨"failOn", "\twarning "⟩], [
    ⟨"UnusedFunction", [⟨"severity", " error"⟩, ⟨"enabled", "false\n"⟩], [
      ⟨"Exclude", [⟨"name", " main "⟩], [], some ⟨2, 5⟩⟩], none⟩,
    ⟨"Analyzer", [⟨"parallelism", " +08 "⟩], [], some ⟨4, 3⟩⟩], none⟩

theorem Config.bind_crowded :
    crowded.FitsWord ∧ bind crowded.toElement = .ok crowded ∧
      ∃ c, bind Markup.padded = .ok c ∧ c.failOn = some .warning ∧ c.longLine = none ∧
        c.parallelism? = some 8 ∧ c.functionExcludes = [" main "] ∧ c.Tells Markup.padded := by
  have fits : crowded.FitsWord := by
    intro section_ there n given
    cases there
    cases given
    decide
  have bound : bind Markup.padded = .ok (ofBound (Binding.image Schema.config Markup.padded)) := rfl
  exact ⟨fits, bind_lossless.1 crowded fits, _, bound, rfl, rfl, rfl, rfl,
    bind_lossless.2 Markup.padded _ bound⟩

end SourceLint
