import SourceLint.Proofs.Markup.Repositioning

/-! # Binding at other positions

Binding looks at no position: it only takes those of the elements to what it returns, and to the
fault that it reports.
-/

namespace SourceLint

/-! ## What has positions -/

namespace Bound

mutual

/-- The bound element with other positions, for itself and for all that are in it. -/
def mapPositions (f : Option Position → Option Position) : Bound → Bound
  | ⟨name, values, children, at_⟩ => ⟨name, values, mapPositionsEach f children, f at_⟩

/-- The bound elements with other positions, one after the other. -/
def mapPositionsEach (f : Option Position → Option Position) : List Bound → List Bound
  | [] => []
  | child :: rest => mapPositions f child :: mapPositionsEach f rest

end

end Bound

/-- The fault where the element at fault has another position. -/
def Binding.Error.mapPositions (f : Option Position → Option Position) :
    Binding.Error → Binding.Error
  | unexpectedRoot expected found at_ => .unexpectedRoot expected found (f at_)
  | unknownElement parent element at_ => .unknownElement parent element (f at_)
  | duplicateElement parent element at_ => .duplicateElement parent element (f at_)
  | unknownAttribute element field at_ => .unknownAttribute element field (f at_)
  | invalidValue element field value expected at_ =>
    .invalidValue element field value expected (f at_)
  | missingAttribute element field at_ => .missingAttribute element field (f at_)
  | missingChild element child => .missingChild element child

variable (f : Option Position → Option Position)

/-! ## Faults and images -/

namespace Binding

open Markup (Element)
open Markup.Element (mapPositions)

theorem attributeFault?_mapPositions (s : Schema) (at_ : Option Position) (a : Markup.Attribute) :
    attributeFault? s (f at_) a = (attributeFault? s at_ a).map (Error.mapPositions f) := by
  rw [attributeFault?, attributeFault?]
  cases s.field? a.name with
  | none => rfl
  | some field =>
      dsimp only
      split <;> rfl

theorem missingFields_mapPositions (s : Schema) (at_ : Option Position)
    (attributes : List Markup.Attribute) :
    missingFields s (f at_) attributes =
      (missingFields s at_ attributes).map (Error.mapPositions f) := by
  rw [missingFields, missingFields, List.map_map]
  rfl

theorem any_mapPositions {p : Element → Bool} (same : ∀ e, p (e.mapPositions f) = p e)
    (elements : List Element) : (elements.map (mapPositions f)).any p = elements.any p := by
  rw [List.any_map]
  congr 1
  funext e
  exact same e

theorem declaredName?_mapPositions (s : Schema) (e : Element) :
    declaredName? s (e.mapPositions f) = declaredName? s e := by
  rw [declaredName?, Markup.Element.mapPositions_name, declaredName?]

theorem missingChildren_mapPositions (s : Schema) (children : List Element) :
    missingChildren s (children.map (mapPositions f)) =
      (missingChildren s children).map (Error.mapPositions f) := by
  have names (name : String) := any_mapPositions f (p := (·.name = name)) (by simp) children
  simp only [missingChildren, names, List.map_map]
  rfl

theorem childFaults_mapPositions (s : Schema) {children : List Element}
    (inside : ∀ child ∈ children, ∀ inner,
      faults inner (child.mapPositions f) = (faults inner child).map (Error.mapPositions f))
    (before : List Element) :
    childFaults s (before.map (mapPositions f)) (children.map (mapPositions f)) =
      (childFaults s before children).map (Error.mapPositions f) := by
  induction children generalizing before with
  | nil => rfl
  | cons child rest ih =>
      obtain ⟨here, later⟩ := List.forall_mem_cons.mp inside
      have rest_ := ih later (before ++ [child])
      rw [List.map_append, List.map_singleton] at rest_
      have declared (name : Option String) :=
        any_mapPositions f (p := (declaredName? s · = name))
          (fun e => by rw [declaredName?_mapPositions]) before
      rw [List.map_cons, childFaults, childFaults, rest_, List.map_append]
      congr 1
      cases found : s.child? child.name with
      | none => simp [found, Error.mapPositions]
      | some inner =>
          simp only [Markup.Element.mapPositions_name, found, declared]
          split
          · simp [Error.mapPositions]
          · exact here inner

theorem faults_mapPositions (s : Schema) (e : Element) :
    faults s (e.mapPositions f) = (faults s e).map (Error.mapPositions f) := by
  induction e using Markup.Element.ofChildren generalizing s with
  | step e ih =>
      have children := childFaults_mapPositions f s (fun child member inner => ih child member inner) []
      have attributes : attributeFault? s (f e.position) =
          fun a => (attributeFault? s e.position a).map (Error.mapPositions f) :=
        funext (attributeFault?_mapPositions f s e.position)
      rw [List.map_nil] at children
      simp only [faults_eq, Markup.Element.mapPositions_attributes,
        Markup.Element.mapPositions_position, Markup.Element.mapPositions_children, attributes,
        missingFields_mapPositions, missingChildren_mapPositions, children, List.map_append,
        List.map_filterMap]

theorem imageOfEach_mapPositions (s : Schema) {children : List Element}
    (inside : ∀ child ∈ children, ∀ inner,
      image inner (child.mapPositions f) = (image inner child).mapPositions f) :
    imageOfEach s (children.map (mapPositions f)) =
      Bound.mapPositionsEach f (imageOfEach s children) := by
  induction children with
  | nil => rfl
  | cons child rest ih =>
      obtain ⟨here, later⟩ := List.forall_mem_cons.mp inside
      simp only [List.map_cons, imageOfEach, Markup.Element.mapPositions_name, ih later, here]
      cases s.child? child.name <;> rfl

theorem image_mapPositions (s : Schema) (e : Element) :
    image s (e.mapPositions f) = (image s e).mapPositions f := by
  induction e using Markup.Element.ofChildren generalizing s with
  | step e ih =>
      have children := imageOfEach_mapPositions f s fun child member inner => ih child member inner
      cases e
      rw [mapPositions, Markup.Element.mapPositionsEach_eq, image, image, children, Bound.mapPositions]

/-- What binding returns and what it reports stand where the elements do. -/
theorem bind_mapPositions (s : Schema) (root : Element) :
    bind s (root.mapPositions f) =
      ((bind s root).map (Bound.mapPositions f)).mapError (Error.mapPositions f) := by
  rw [bind, bind, Markup.Element.mapPositions_name, Markup.Element.mapPositions_position]
  split
  · rw [bindNode_eq, bindNode_eq, faults_mapPositions, image_mapPositions]
    cases faults s root <;> rfl
  · rfl

end Binding

/-! ## What a bound element says -/

namespace Bound

theorem mapPositionsEach_eq (bounds : List Bound) :
    mapPositionsEach f bounds = bounds.map (mapPositions f) := by
  induction bounds with
  | nil => rfl
  | cons b rest ih => rw [mapPositionsEach, ih, List.map_cons]

@[simp] theorem mapPositions_name (b : Bound) : (b.mapPositions f).name = b.name := by
  cases b
  rfl

@[simp] theorem mapPositions_values (b : Bound) : (b.mapPositions f).values = b.values := by
  cases b
  rfl

@[simp] theorem mapPositions_position (b : Bound) : (b.mapPositions f).position = f b.position := by
  cases b
  rfl

@[simp] theorem mapPositions_children (b : Bound) :
    (b.mapPositions f).children = b.children.map (mapPositions f) := by
  cases b
  exact mapPositionsEach_eq f _

@[simp] theorem value?_mapPositions (b : Bound) : (b.mapPositions f).value? = b.value? := by
  funext name
  rw [value?, mapPositions_values, value?]

theorem childrenNamed_mapPositions (b : Bound) (name : String) :
    (b.mapPositions f).childrenNamed name = (b.childrenNamed name).map (mapPositions f) := by
  simp only [childrenNamed, mapPositions_children, List.filter_map, Function.comp_def,
    mapPositions_name]

theorem child?_mapPositions (b : Bound) (name : String) :
    (b.mapPositions f).child? name = (b.child? name).map (mapPositions f) := by
  simp only [child?, mapPositions_children, List.find?_map, Function.comp_def, mapPositions_name]

end Bound

end SourceLint
