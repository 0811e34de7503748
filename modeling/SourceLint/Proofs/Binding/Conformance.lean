import SourceLint.Proofs.Binding.Faults
import SourceLint.Schema.Builtin

/-! # What binding accepts and what it returns

An element conforms to a schema when it, and every element in it, has declared attributes
with values of their kinds, all that is required, and no child twice where one is allowed.
Binding accepts exactly the conforming elements of the schema's name, and returns their
typed image, in which every attribute that occurs can be read as a value of its kind.
-/

namespace SourceLint

/-- The kind of a value. -/
def FieldValue.kind : FieldValue → FieldKind
  | text _ => .text
  | integer _ => .integer
  | boolean _ => .boolean
  | severity _ => .severity

/-- An attribute can be read as a value of that kind. -/
def Bound.has (b : Bound) (name : String) : FieldKind → Bool
  | .text => (b.text? name).isSome
  | .integer => (b.integer? name).isSome
  | .boolean => (b.boolean? name).isSome
  | .severity => (b.severity? name).isSome

/-- The value of the last attribute of that name. -/
def Markup.Element.lastAttribute? (e : Markup.Element) (name : String) : Option String :=
  (e.attributes.reverse.find? (·.name = name)).map (·.value)

namespace Binding

open Markup (Element)

/-- The element, of whatever name, is in the language of the schema. A child is held against
the first schema declared for its name. -/
inductive Conforms : Schema → Element → Prop where
  | intro {s : Schema} {e : Element}
    (converts : ∀ a ∈ e.attributes, ∃ field value,
      s.field? a.name = some field ∧ convert a.value field.kind = some value)
    (complete : ∀ field ∈ s.fields, field.required = true → ∃ a ∈ e.attributes, a.name = field.name)
    (declared : ∀ child ∈ e.children, ∃ inner, s.child? child.name = some inner)
    (single : ∀ name inner, s.child? name = some inner → inner.repeatable = false →
      e.children.countP (·.name = name) ≤ 1)
    (present : ∀ name ∈ s.requiredChildren, ∃ child ∈ e.children, child.name = name)
    (inside : ∀ child ∈ e.children, ∀ inner, s.child? child.name = some inner →
      Conforms inner child) :
    Conforms s e

/-- The bound element is what the element means to the schema: a value for each attribute
name that occurs, converted from its last occurrence, and a bound child for each child, in
order. At every node an attribute can be read as a value of the kind declared for it, and
of no other, exactly where it occurs. -/
inductive IsImage : Schema → Element → Bound → Prop where
  | intro {s : Schema} {e : Element} {b : Bound}
    (name : b.name = s.name)
    (position : b.position = e.position)
    (distinct : (b.values.map Prod.fst).Nodup)
    (occurring : ∀ name, name ∈ b.values.map Prod.fst ↔ ∃ a ∈ e.attributes, a.name = name)
    (value : ∀ name, b.value? name = (e.lastAttribute? name).bind fun raw =>
      (s.field? name).bind fun field => convert raw field.kind)
    (readable : ∀ name field kind, s.field? name = some field →
      (b.has name kind = true ↔ kind = field.kind ∧ ∃ a ∈ e.attributes, a.name = name))
    (length : b.children.length = e.children.length)
    (declared : ∀ child ∈ e.children, ∃ inner, s.child? child.name = some inner)
    (children : ∀ pair ∈ e.children.zip b.children, ∀ inner,
      s.child? pair.1.name = some inner → IsImage inner pair.1 pair.2) :
    IsImage s e b

/-! ## Acceptance -/

theorem missingFields_eq_nil_iff {s : Schema} {at_ : Option Position}
    {attributes : List Markup.Attribute} :
    missingFields s at_ attributes = [] ↔
      ∀ field ∈ s.fields, field.required = true → ∃ a ∈ attributes, a.name = field.name := by
  simp [missingFields]

theorem missingChildren_eq_nil_iff {s : Schema} {children : List Element} :
    missingChildren s children = [] ↔
      ∀ name ∈ s.requiredChildren, ∃ child ∈ children, child.name = name := by
  simp [missingChildren]

/-- A declared child is declared under its own name. -/
theorem any_declaredName? {s inner : Schema} {child : Element}
    (found : s.child? child.name = some inner) (before : List Element) :
    before.any (declaredName? s · = some inner.name) = before.any (·.name = child.name) := by
  congr 1
  funext sibling
  rw [child?_name found, decide_eq_decide, declaredName?_eq_some_iff, found]
  simp

/-- A declared child is a fault where it must not stand twice and does, or else has the
faults of its own. -/
theorem childFaults_cons {s inner : Schema} {child : Element}
    (found : s.child? child.name = some inner) (before rest : List Element) :
    childFaults s before (child :: rest) =
      (if !inner.repeatable && before.any (·.name = child.name) then
        [.duplicateElement s.name inner.name child.position]
      else faults inner child) ++ childFaults s (before ++ [child]) rest := by
  simp only [childFaults, found, any_declaredName? found]

/-- No name that may stand once stands again among the children after `before`. -/
def WithinLimits (s : Schema) (before children : List Element) : Prop :=
  ∀ name inner, s.child? name = some inner → inner.repeatable = false →
    children.countP (·.name = name) ≤ if before.any (·.name = name) then 0 else 1

theorem withinLimits_cons_iff {s inner : Schema} {child : Element}
    (found : s.child? child.name = some inner) (before rest : List Element) :
    WithinLimits s before (child :: rest) ↔
      (inner.repeatable = false → before.any (·.name = child.name) = false) ∧
        WithinLimits s (before ++ [child]) rest := by
  constructor
  · intro limits
    refine ⟨fun once => ?_, fun name other declared once => ?_⟩
    · have bound := limits child.name inner found once
      cases twice : before.any (·.name = child.name) with
      | false => rfl
      | true => simp [twice] at bound
    · have bound := limits name other declared once
      by_cases same : child.name = name
      · simp only [List.countP_cons, same, decide_true, if_true] at bound
        simp only [List.any_append, List.any_cons, same, decide_true, Bool.true_or, Bool.or_true,
          if_true]
        split at bound <;> omega
      · simpa [List.countP_cons, same] using bound
  · rintro ⟨fresh, limits⟩ name other declared once
    have bound := limits name other declared once
    by_cases same : child.name = name
    · subst same
      have new := fresh (by rw [Option.some.inj (found.symm.trans declared)]; exact once)
      simp only [List.any_append, List.any_cons, decide_true, Bool.true_or, Bool.or_true,
        if_true] at bound
      simp only [List.countP_cons, decide_true, if_true, new]
      simp only [Bool.false_eq_true, if_false]
      omega
    · simpa [List.countP_cons, same] using bound

/-- Children have no faults when each is declared and has none, and no name stands twice
where it must not. -/
theorem childFaults_eq_nil_iff {s : Schema} {before children : List Element} :
    childFaults s before children = [] ↔
      (∀ child ∈ children, ∃ inner, s.child? child.name = some inner ∧ faults inner child = []) ∧
        WithinLimits s before children := by
  induction children generalizing before with
  | nil => simp [childFaults, WithinLimits]
  | cons child rest ih =>
      cases found : s.child? child.name with
      | none => simp [childFaults, found]
      | some inner =>
          rw [childFaults_cons found, List.append_eq_nil_iff, ih, withinLimits_cons_iff found]
          simp only [List.forall_mem_cons, found, Option.some.injEq, exists_eq_left']
          cases once : inner.repeatable with
          | true => simp [and_assoc]
          | false =>
              cases twice : before.any (·.name = child.name) with
              | true => simp
              | false => simp [and_assoc]

/-- An element has no faults exactly when it conforms. -/
theorem faults_eq_nil_iff (s : Schema) (e : Element) : faults s e = [] ↔ Conforms s e := by
  induction e using Markup.Element.ofChildren generalizing s with
  | step e ih =>
      cases e with
      | mk name attributes children at_ =>
          simp only [faults, List.append_eq_nil_iff, List.filterMap_eq_nil_iff,
            attributeFault?_eq_none_iff, missingFields_eq_nil_iff, childFaults_eq_nil_iff,
            missingChildren_eq_nil_iff, and_assoc]
          constructor
          · rintro ⟨converts, complete, clean, limits, present⟩
            refine .intro converts complete (fun child member => ?_) (fun name inner found once => ?_)
              present (fun child member inner found => ?_)
            · obtain ⟨inner, found, _⟩ := clean child member
              exact ⟨inner, found⟩
            · simpa using limits name inner found once
            · obtain ⟨other, declared, faultless⟩ := clean child member
              obtain rfl := Option.some.inj (found.symm.trans declared)
              exact (ih child member inner).mp faultless
          · rintro ⟨converts, complete, declared, single, present, inside⟩
            refine ⟨converts, complete, fun child member => ?_, fun name inner found once => ?_,
              present⟩
            · obtain ⟨inner, found⟩ := declared child member
              exact ⟨inner, found, (ih child member inner).mpr (inside child member inner found)⟩
            · simpa using single name inner found once

/-- An element, of whatever name, is bound where it conforms, to its image. -/
theorem bindNode_eq_ok_iff {s : Schema} {e : Element} {b : Bound} :
    bindNode s e = .ok b ↔ Conforms s e ∧ image s e = b := by
  rw [bindNode_eq, firstOr_eq_ok_iff, faults_eq_nil_iff]

/-! ## The typed image -/

/-- Conversion yields a value of the kind asked for. -/
theorem convert_kind {raw : String} {kind : FieldKind} {value : FieldValue}
    (converted : convert raw kind = some value) : value.kind = kind := by
  cases kind with
  | text =>
      obtain rfl := Option.some.inj converted
      rfl
  | integer =>
      obtain ⟨n, _, rfl⟩ := Option.map_eq_some_iff.mp converted
      rfl
  | boolean =>
      simp only [convert] at converted
      split at converted
      · obtain rfl := Option.some.inj converted
        rfl
      · split at converted
        · obtain rfl := Option.some.inj converted
          rfl
        · cases converted
  | severity =>
      obtain ⟨level, _, rfl⟩ := Option.map_eq_some_iff.mp converted
      rfl

theorem has_iff (b : Bound) (name : String) (kind : FieldKind) :
    b.has name kind = true ↔ ∃ value, b.value? name = some value ∧ value.kind = kind := by
  cases stored : b.value? name with
  | none => cases kind <;>
      simp [Bound.has, Bound.text?, Bound.integer?, Bound.boolean?, Bound.severity?, stored]
  | some value => cases kind <;> cases value <;>
      simp [Bound.has, Bound.text?, Bound.integer?, Bound.boolean?, Bound.severity?, stored,
        FieldValue.kind]

theorem put_find? (values : List (String × FieldValue)) (name other : String) (value : FieldValue) :
    (Bound.put values name value).find? (·.1 = other) =
      if name = other then some (name, value) else values.find? (·.1 = other) := by
  by_cases same : name = other
  · subst same
    have gone : (values.filter (·.1 ≠ name)).find? (·.1 = name) = none := by
      simp [List.find?_eq_none]
    rw [Bound.put, List.find?_append, gone]
    simp
  · have kept : (values.filter (·.1 ≠ name)).find? (·.1 = other) = values.find? (·.1 = other) := by
      rw [List.find?_filter]
      congr 1
      funext entry
      by_cases here : entry.1 = other
      · simp [here, Ne.symm same]
      · simp [here]
    rw [Bound.put, List.find?_append, kept]
    simp [same]

theorem put_nodup {values : List (String × FieldValue)} (distinct : (values.map Prod.fst).Nodup)
    (name : String) (value : FieldValue) :
    ((Bound.put values name value).map Prod.fst).Nodup := by
  rw [Bound.put, List.map_append, List.nodup_append]
  refine ⟨(List.filter_sublist.map Prod.fst).nodup distinct, by simp, ?_⟩
  intro other kept new fresh
  simp only [List.map_cons, List.map_nil, List.mem_singleton] at fresh
  subst fresh
  simp only [List.mem_map, List.mem_filter, decide_eq_true_eq] at kept
  obtain ⟨entry, ⟨_, differs⟩, rfl⟩ := kept
  exact differs

theorem foldl_store_nodup (s : Schema) (attributes : List Markup.Attribute)
    {values : List (String × FieldValue)} (distinct : (values.map Prod.fst).Nodup) :
    ((attributes.foldl (store s) values).map Prod.fst).Nodup := by
  induction attributes generalizing values with
  | nil => exact distinct
  | cons a rest ih =>
      apply ih
      simp only [store]
      split
      · exact distinct
      · split
        · exact distinct
        · exact put_nodup distinct _ _

/-- The value that the attribute has for the schema. -/
def converted? (s : Schema) (a : Markup.Attribute) : Option FieldValue :=
  (s.field? a.name).bind fun field => convert a.value field.kind

theorem converted?_isSome {s : Schema} {at_ : Option Position} {attributes : List Markup.Attribute}
    (faultless : attributes.filterMap (attributeFault? s at_) = []) {a : Markup.Attribute}
    (member : a ∈ attributes) : ∃ value, converted? s a = some value := by
  obtain ⟨field, value, found, converted⟩ :=
    attributeFault?_eq_none_iff.mp (List.filterMap_eq_nil_iff.mp faultless a member)
  exact ⟨value, by rw [converted?, found, Option.bind_some, converted]⟩

/-- Of several attributes of one name the last one leaves its value. -/
theorem foldl_store_find? {s : Schema} {at_ : Option Position} {attributes : List Markup.Attribute}
    (faultless : attributes.filterMap (attributeFault? s at_) = [])
    (values : List (String × FieldValue)) (name : String) :
    ((attributes.foldl (store s) values).find? (·.1 = name)).map Prod.snd =
      ((attributes.reverse.find? (·.name = name)).bind (converted? s)).or
        ((values.find? (·.1 = name)).map Prod.snd) := by
  induction attributes generalizing values with
  | nil => simp
  | cons a rest ih =>
      have later : rest.filterMap (attributeFault? s at_) = [] := by
        rw [List.filterMap_cons] at faultless
        split at faultless
        · exact faultless
        · cases faultless
      obtain ⟨field, value, found, converted⟩ :=
        attributeFault?_eq_none_iff.mp (List.filterMap_eq_nil_iff.mp faultless a List.mem_cons_self)
      simp only [List.foldl_cons, store, found, converted, ih later, put_find?, field?_name found,
        List.reverse_cons, List.find?_append]
      cases last : rest.reverse.find? (·.name = name) with
      | some b =>
          obtain ⟨kept, same⟩ := converted?_isSome later
            (List.mem_reverse.mp (List.mem_of_find?_eq_some last))
          simp [same]
      | none =>
          by_cases here : a.name = name
          · subst here
            simp [converted?, found, converted]
          · simp [here]

theorem lastAttribute?_bind (s : Schema) (e : Element) (name : String) :
    ((e.lastAttribute? name).bind fun raw => (s.field? name).bind fun field =>
      convert raw field.kind) = (e.attributes.reverse.find? (·.name = name)).bind (converted? s) := by
  rw [Markup.Element.lastAttribute?]
  cases last : e.attributes.reverse.find? (·.name = name) with
  | none => rfl
  | some a =>
      have same : a.name = name := by simpa using List.find?_some last
      subst same
      rfl

/-- The image of an element without faults has the values that its attributes have. -/
theorem image_value? {s : Schema} {e : Element}
    (faultless : e.attributes.filterMap (attributeFault? s e.position) = []) (name : String) :
    (image s e).value? name = (e.attributes.reverse.find? (·.name = name)).bind (converted? s) := by
  have stored := foldl_store_find? faultless [] name
  simpa [Bound.value?] using stored

/-- An attribute that occurs can be read as a value of its declared kind and of no other. -/
theorem image_has_iff {s : Schema} {e : Element}
    (faultless : e.attributes.filterMap (attributeFault? s e.position) = []) {name : String}
    {field : Schema.Field} (found : s.field? name = some field) (kind : FieldKind) :
    (image s e).has name kind = true ↔ kind = field.kind ∧ ∃ a ∈ e.attributes, a.name = name := by
  rw [has_iff, image_value? faultless]
  constructor
  · rintro ⟨value, stored, rfl⟩
    obtain ⟨a, last, converted⟩ := Option.bind_eq_some_iff.mp stored
    have same : a.name = name := by simpa using List.find?_some last
    subst same
    rw [converted?, found, Option.bind_some] at converted
    exact ⟨convert_kind converted, a, List.mem_reverse.mp (List.mem_of_find?_eq_some last), rfl⟩
  · rintro ⟨rfl, a, member, same⟩
    obtain ⟨b, last⟩ : ∃ b, e.attributes.reverse.find? (·.name = name) = some b := by
      rw [← Option.isSome_iff_exists, List.find?_isSome]
      exact ⟨a, List.mem_reverse.mpr member, by simpa using same⟩
    obtain ⟨value, converted⟩ := converted?_isSome faultless
      (List.mem_reverse.mp (List.mem_of_find?_eq_some last))
    refine ⟨value, by rw [last, Option.bind_some, converted], ?_⟩
    have named : b.name = name := by simpa using List.find?_some last
    rw [converted?, named, found, Option.bind_some] at converted
    exact convert_kind converted

theorem imageOfEach_length {s : Schema} {children : List Element}
    (declared : ∀ child ∈ children, ∃ inner, s.child? child.name = some inner) :
    (imageOfEach s children).length = children.length := by
  induction children with
  | nil => rfl
  | cons child rest ih =>
      obtain ⟨inner, found⟩ := declared child List.mem_cons_self
      rw [imageOfEach_cons found, List.length_cons, List.length_cons,
        ih fun other member => declared other (List.mem_cons_of_mem child member)]

theorem imageOfEach_zip {s : Schema} {children : List Element}
    (declared : ∀ child ∈ children, ∃ inner, s.child? child.name = some inner)
    {pair : Element × Bound} (member : pair ∈ children.zip (imageOfEach s children)) :
    ∃ inner, s.child? pair.1.name = some inner ∧ pair.1 ∈ children ∧ pair.2 = image inner pair.1 := by
  induction children with
  | nil => simp at member
  | cons child rest ih =>
      obtain ⟨inner, found⟩ := declared child List.mem_cons_self
      rw [imageOfEach_cons found, List.zip_cons_cons, List.mem_cons] at member
      rcases member with rfl | member
      · exact ⟨inner, found, List.mem_cons_self, rfl⟩
      · obtain ⟨other, known, there, bound⟩ :=
          ih (fun other there => declared other (List.mem_cons_of_mem child there)) member
        exact ⟨other, known, List.mem_cons_of_mem child there, bound⟩

/-- The image of a conforming element is its typed image at every node. -/
theorem isImage_image {s : Schema} {e : Element} (conforms : Conforms s e) :
    IsImage s e (image s e) := by
  induction e using Markup.Element.ofChildren generalizing s with
  | step e ih =>
      cases conforms with
      | intro converts complete declared single present inside =>
          have faultless : e.attributes.filterMap (attributeFault? s e.position) = [] :=
            List.filterMap_eq_nil_iff.mpr fun a member =>
              attributeFault?_eq_none_iff.mpr (converts a member)
          refine .intro (image_name s e) (image_position s e) ?_ (fun name => ?_) (fun name => ?_)
            (fun name field kind found => image_has_iff faultless found kind) ?_ declared
            (fun pair member inner found => ?_)
          · rw [image_values]
            exact foldl_store_nodup s e.attributes List.nodup_nil
          · have any := foldl_store_any faultless [] name
            rw [Bool.eq_iff_iff] at any
            simpa using any
          · rw [image_value? faultless, lastAttribute?_bind]
          · rw [image_children, imageOfEach_length declared]
          · rw [image_children] at member
            obtain ⟨other, known, there, bound⟩ := imageOfEach_zip declared member
            obtain rfl := Option.some.inj (found.symm.trans known)
            rw [bound]
            exact ih pair.1 there (inside pair.1 there inner found)

/-- Binding accepts exactly the elements that have the schema's name and conform to it, and
what it returns is their typed image. -/
theorem bind_ok_iff_conforms (s : Schema) (root : Element) :
    ((∃ b, bind s root = .ok b) ↔ root.name = s.name ∧ Conforms s root) ∧
      ∀ b, bind s root = .ok b → IsImage s root b := by
  have bound (b : Bound) :
      bind s root = .ok b ↔ root.name = s.name ∧ Conforms s root ∧ image s root = b := by
    by_cases named : root.name = s.name
    · simp [bind, named, bindNode_eq, firstOr_eq_ok_iff, faults_eq_nil_iff]
    · simp [bind, named]
  refine ⟨?_, fun b accepted => ?_⟩
  · simp [bound]
  · obtain ⟨_, conforms, rfl⟩ := (bound b).mp accepted
    exact isImage_image conforms

/-- A configuration made by hand that says its threshold twice. -/
def thresholdTwice : Element :=
  ⟨"config", [⟨"failOn", "warning"⟩, ⟨"failOn", " error "⟩], [
    ⟨"Analyzer", [⟨"parallelism", "+4"⟩], [
      ⟨"Exclude", [⟨"pattern", "gen/**"⟩], [], none⟩,
      ⟨"Exclude", [⟨"pattern", "old/**"⟩], [], none⟩], none⟩], none⟩

theorem bind_thresholdTwice :
    ∃ b, bind Schema.config thresholdTwice = .ok b ∧ b.severity? "failOn" = some .error ∧
      IsImage Schema.config thresholdTwice b := by
  have accepted : bind Schema.config thresholdTwice = .ok (image Schema.config thresholdTwice) :=
    rfl
  exact ⟨_, accepted, rfl, (bind_ok_iff_conforms Schema.config thresholdTwice).2 _ accepted⟩

end Binding

end SourceLint
