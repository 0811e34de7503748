import SourceLint.Binding

/-! # All faults of an element

Binding stops at the first mismatch. Here every mismatch is listed: those of the
attributes of an element, its missing attributes, the faults of its children one after
the other, and its missing children. Binding reports the head of this list, and where
the list is empty it returns the image of the element. Everything that is said about
acceptance, errors and results follows from this one equation.
-/

namespace SourceLint

/-- What holds of an element whenever it holds of its children holds of every element. -/
theorem Markup.Element.ofChildren {motive : Markup.Element → Prop}
    (step : ∀ e : Markup.Element, (∀ child ∈ e.children, motive child) → motive e)
    (e : Markup.Element) : motive e := by
  apply step e
  intro child member
  exact ofChildren step child
termination_by sizeOf e
decreasing_by
  have smaller := List.sizeOf_lt_of_mem member
  cases e
  simp only [Markup.Element.mk.sizeOf_spec] at smaller ⊢
  omega

namespace Binding

open Markup (Element)

/-- What is wrong with an attribute of an element at `at_`. -/
def attributeFault? (s : Schema) (at_ : Option Position) (a : Markup.Attribute) : Option Error :=
  match s.field? a.name with
  | none => some (.unknownAttribute s.name a.name at_)
  | some field =>
    if (convert a.value field.kind).isSome then none
    else some (.invalidValue s.name field.name a.value field.kind at_)

/-- The required attributes that are not there, in the order of the schema. -/
def missingFields (s : Schema) (at_ : Option Position) (attributes : List Markup.Attribute) :
    List Error :=
  (s.fields.filter fun field => field.required && !attributes.any (·.name = field.name)).map
    fun field => .missingAttribute s.name field.name at_

/-- The required children that are not there, in the order of the schema. -/
def missingChildren (s : Schema) (children : List Element) : List Error :=
  (s.requiredChildren.filter fun name => !children.any (·.name = name)).map
    fun name => .missingChild s.name name

/-- The name by which `s` declares a child, if it does. -/
def declaredName? (s : Schema) (child : Element) : Option String :=
  (s.child? child.name).map (·.name)

mutual

/-- All faults of an element of any name against `s`, in document order. -/
def faults (s : Schema) : Element → List Error
  | ⟨_, attributes, children, at_⟩ =>
    attributes.filterMap (attributeFault? s at_) ++ missingFields s at_ attributes ++
      childFaults s [] children ++ missingChildren s children

/-- All faults of the children that come after the siblings in `before`. -/
def childFaults (s : Schema) (before : List Element) : List Element → List Error
  | [] => []
  | child :: rest =>
    (match s.child? child.name with
      | none => [.unknownElement s.name child.name child.position]
      | some inner =>
        if !inner.repeatable && before.any (declaredName? s · = some inner.name) then
          [.duplicateElement s.name inner.name child.position]
        else faults inner child) ++
      childFaults s (before ++ [child]) rest

end

/-- The values with that of an attribute in place of an earlier one of its name. -/
def store (s : Schema) (values : List (String × FieldValue)) (a : Markup.Attribute) :
    List (String × FieldValue) :=
  match s.field? a.name with
  | none => values
  | some field =>
    match convert a.value field.kind with
    | none => values
    | some value => Bound.put values field.name value

mutual

/-- What an element becomes: its values converted and its children bound. What does not fit
the schema is left out. -/
def image (s : Schema) : Element → Bound
  | ⟨_, attributes, children, at_⟩ =>
    ⟨s.name, attributes.foldl (store s) [], imageOfEach s children, at_⟩

/-- What children become. -/
def imageOfEach (s : Schema) : List Element → List Bound
  | [] => []
  | child :: rest =>
    match s.child? child.name with
    | none => imageOfEach s rest
    | some inner => image inner child :: imageOfEach s rest

end

/-- The first of the faults, or what comes otherwise where there are none. -/
def firstOr (faults : List Error) (otherwise : Except Error α) : Except Error α :=
  match faults with
  | [] => otherwise
  | fault :: _ => .error fault

@[simp] theorem firstOr_nil (otherwise : Except Error α) : firstOr [] otherwise = otherwise := rfl

@[simp] theorem firstOr_cons (fault : Error) (more : List Error) (otherwise : Except Error α) :
    firstOr (fault :: more) otherwise = .error fault := rfl

theorem firstOr_append (first second : List Error) (otherwise : Except Error α) :
    firstOr (first ++ second) otherwise = firstOr first (firstOr second otherwise) := by
  cases first with
  | nil => rfl
  | cons fault more => rfl

theorem firstOr_eq_ok_iff {faults : List Error} {result a : α} :
    firstOr faults (.ok result) = .ok a ↔ faults = [] ∧ result = a := by
  cases faults with
  | nil => simp
  | cons fault more => simp

theorem firstOr_eq_error_iff {faults : List Error} {result : α} {e : Error} :
    firstOr faults (.ok result) = .error e ↔ faults.head? = some e := by
  cases faults with
  | nil => simp
  | cons fault more => simp

/-- Looking for the first item that fails a test is looking at all that do. -/
theorem firstOr_filter (p : β → Bool) (make : β → Error) (items : List β)
    (otherwise : Except Error α) :
    firstOr ((items.filter p).map make) otherwise =
      match items.find? p with
      | some item => .error (make item)
      | none => otherwise := by
  rw [← List.head?_filter]
  cases items.filter p with
  | nil => rfl
  | cons item more => rfl

theorem field?_name {s : Schema} {name : String} {field : Schema.Field}
    (found : s.field? name = some field) : field.name = name := by
  simpa using List.find?_some found

theorem child?_name {s inner : Schema} {name : String} (found : s.child? name = some inner) :
    inner.name = name := by
  simpa using List.find?_some found

theorem declaredName?_eq_some_iff {s : Schema} {child : Element} {name : String} :
    declaredName? s child = some name ↔ child.name = name ∧ (s.child? name).isSome := by
  rw [declaredName?, Option.map_eq_some_iff]
  constructor
  · rintro ⟨inner, found, rfl⟩
    have same := child?_name found
    exact ⟨same.symm, by rw [same, found]; rfl⟩
  · rintro ⟨rfl, declared⟩
    obtain ⟨inner, found⟩ := Option.isSome_iff_exists.mp declared
    exact ⟨inner, found, child?_name found⟩

/-! ## Attributes -/

theorem bindAttributes_eq (s : Schema) (at_ : Option Position)
    (attributes : List Markup.Attribute) (values : List (String × FieldValue)) :
    bindAttributes s at_ values attributes =
      firstOr (attributes.filterMap (attributeFault? s at_))
        (.ok (attributes.foldl (store s) values)) := by
  induction attributes generalizing values with
  | nil => rfl
  | cons a rest ih =>
      cases found : s.field? a.name with
      | none => simp [bindAttributes, attributeFault?, found]
      | some field =>
          cases converted : convert a.value field.kind with
          | none => simp [bindAttributes, attributeFault?, found, converted]
          | some value => simp [bindAttributes, attributeFault?, store, found, converted, ih]

theorem put_any (values : List (String × FieldValue)) (name other : String) (value : FieldValue) :
    (Bound.put values name value).any (·.1 = other) =
      (values.any (·.1 = other) || decide (name = other)) := by
  by_cases same : name = other
  · simp [Bound.put, same]
  · simp only [Bound.put, List.any_append, List.any_filter, List.any_cons, List.any_nil,
      Bool.or_false]
    congr 2
    funext entry
    by_cases here : entry.1 = other
    · simp [here, Ne.symm same]
    · simp [here]

/-- An attribute without a fault is declared and its value converts. -/
theorem attributeFault?_eq_none_iff {s : Schema} {at_ : Option Position} {a : Markup.Attribute} :
    attributeFault? s at_ a = none ↔
      ∃ field value, s.field? a.name = some field ∧ convert a.value field.kind = some value := by
  cases found : s.field? a.name with
  | none => simp [attributeFault?, found]
  | some field => simp [attributeFault?, found, Option.isSome_iff_exists]

theorem foldl_store_any {s : Schema} {at_ : Option Position} {attributes : List Markup.Attribute}
    (faultless : attributes.filterMap (attributeFault? s at_) = [])
    (values : List (String × FieldValue)) (name : String) :
    (attributes.foldl (store s) values).any (·.1 = name) =
      (values.any (·.1 = name) || attributes.any (·.name = name)) := by
  induction attributes generalizing values with
  | nil => simp
  | cons a rest ih =>
      rw [List.filterMap_eq_nil_iff] at faultless
      obtain ⟨field, value, found, converted⟩ :=
        attributeFault?_eq_none_iff.mp (faultless a List.mem_cons_self)
      have later := ih (List.filterMap_eq_nil_iff.mpr fun b member =>
        faultless b (List.mem_cons_of_mem a member)) (Bound.put values field.name value)
      rw [put_any, field?_name found] at later
      simp only [List.foldl_cons, store, found, converted, List.any_cons, ← Bool.or_assoc, ← later,
        field?_name found]

/-- Once the attributes are bound, a required one is missing where the element has none of
its name. -/
theorem missingField?_eq {s : Schema} {at_ : Option Position} {attributes : List Markup.Attribute}
    (faultless : attributes.filterMap (attributeFault? s at_) = []) :
    missingField? s (attributes.foldl (store s) []) =
      s.fields.find? fun field => field.required && !attributes.any (·.name = field.name) := by
  rw [missingField?]
  congr 1
  funext field
  rw [foldl_store_any faultless]
  simp

/-! ## Children -/

@[simp] theorem image_name (s : Schema) (e : Element) : (image s e).name = s.name := by
  cases e
  rfl

@[simp] theorem image_position (s : Schema) (e : Element) : (image s e).position = e.position := by
  cases e
  rfl

@[simp] theorem image_values (s : Schema) (e : Element) :
    (image s e).values = e.attributes.foldl (store s) [] := by
  cases e
  rfl

@[simp] theorem image_children (s : Schema) (e : Element) :
    (image s e).children = imageOfEach s e.children := by
  cases e
  rfl

theorem imageOfEach_cons {s inner : Schema} {child : Element} (found : s.child? child.name = some inner)
    (rest : List Element) :
    imageOfEach s (child :: rest) = image inner child :: imageOfEach s rest := by
  simp [imageOfEach, found]

/-- Children without faults are declared, and so are bound under the names they have. -/
theorem imageOfEach_names {s : Schema} {before children : List Element}
    (faultless : childFaults s before children = []) :
    (imageOfEach s children).map (·.name) = children.map (·.name) := by
  induction children generalizing before with
  | nil => rfl
  | cons child rest ih =>
      rw [childFaults, List.append_eq_nil_iff] at faultless
      cases found : s.child? child.name with
      | none => simp [found] at faultless
      | some inner =>
          rw [imageOfEach_cons found, List.map_cons, List.map_cons, ih faultless.2, image_name,
            child?_name found]

/-- Once the children are bound, a required one is missing where the element has none of its
name. -/
theorem missingChild?_eq {s : Schema} {before children : List Element}
    (faultless : childFaults s before children = []) :
    missingChild? s (imageOfEach s children) =
      s.requiredChildren.find? fun name => !children.any (·.name = name) := by
  have names := imageOfEach_names faultless
  rw [missingChild?]
  congr 1
  funext name
  have bound := congrArg (fun ns : List String => ns.any (· = name)) names
  simp only [List.any_map, Function.comp_def] at bound
  rw [bound]

mutual

/-- Binding reports the first of all faults, or returns the image. -/
theorem bindNode_eq (s : Schema) (e : Element) :
    bindNode s e = firstOr (faults s e) (.ok (image s e)) := by
  cases e with
  | mk name attributes children at_ =>
      simp only [bindNode, bindAttributes_eq, faults, image, firstOr_append]
      cases attributeFaults : attributes.filterMap (attributeFault? s at_) with
      | cons fault more => rfl
      | nil =>
          simp only [firstOr_nil, missingField?_eq attributeFaults, missingFields, firstOr_filter]
          cases s.fields.find? fun field =>
              field.required && !attributes.any (·.name = field.name) with
          | some field => rfl
          | none =>
              have none : ([] : List Element).map (declaredName? s) =
                  ([] : List Bound).map fun b => some b.name := rfl
              rw [bindChildren_eq s none children]
              cases childrenFaults : childFaults s [] children with
              | cons fault more => rfl
              | nil =>
                  simp only [firstOr_nil, List.nil_append, missingChild?_eq childrenFaults,
                    missingChildren, firstOr_filter]
                  cases s.requiredChildren.find? fun name => !children.any (·.name = name) with
                  | some child => rfl
                  | none => rfl
termination_by sizeOf e

/-- What holds of an element holds of children whose siblings `before` have become `done`. -/
theorem bindChildren_eq (s : Schema) {before : List Element} {done : List Bound}
    (settled : before.map (declaredName? s) = done.map fun b => some b.name)
    (children : List Element) :
    bindChildren s done children =
      firstOr (childFaults s before children) (.ok (done ++ imageOfEach s children)) := by
  cases children with
  | nil => simp [bindChildren, childFaults, imageOfEach]
  | cons child rest =>
      cases found : s.child? child.name with
      | none => simp [bindChildren, childFaults, found]
      | some inner =>
          have repeated : done.any (·.name = inner.name) =
              before.any (declaredName? s · = some inner.name) := by
            have names :=
              congrArg (fun ns : List (Option String) => ns.any (· = some inner.name)) settled
            simp only [List.any_map, Function.comp_def, Option.some.injEq] at names
            exact names.symm
          simp only [bindChildren, childFaults, found, repeated, bindNode_eq inner child]
          by_cases twice : (!inner.repeatable && before.any (declaredName? s · = some inner.name)) = true
          · simp [twice]
          · rw [if_neg twice, if_neg twice]
            cases inside : faults inner child with
            | cons fault more => simp
            | nil =>
                have next : (before ++ [child]).map (declaredName? s) =
                    (done ++ [image inner child]).map fun b => some b.name := by
                  simp [settled, declaredName?, found]
                simp [bindChildren_eq s next rest, imageOfEach_cons found]
termination_by sizeOf children

end

end Binding

end SourceLint
