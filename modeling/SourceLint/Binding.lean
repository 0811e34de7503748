import SourceLint.Binding.Bound
import SourceLint.Binding.Error
import SourceLint.Markup.Element
import SourceLint.Text.Decimal

/-! # Binding elements to schemas

An element is checked against a schema and its values are converted. The first
mismatch in document order stops the work: the attributes of an element come
before its missing ones, those before its children, and missing children last.
-/

namespace SourceLint.Binding

/-- The value that a literal has as one of a kind. -/
def convert (raw : String) : FieldKind → Option FieldValue
  | .text => some (.text raw)
  | .integer => (Text.parseInteger raw).map .integer
  | .boolean =>
    let word := Text.trim raw
    if word = "true" then some (.boolean true)
    else if word = "false" then some (.boolean false)
    else none
  | .severity => (Severity.parse? (Text.trim raw)).map .severity

/-- The values of the attributes of an element at `at_`, added to `values`. -/
def bindAttributes (s : Schema) (at_ : Option Position) (values : List (String × FieldValue)) :
    List Markup.Attribute → Except Error (List (String × FieldValue))
  | [] => .ok values
  | a :: rest =>
    match s.field? a.name with
    | none => .error (.unknownAttribute s.name a.name at_)
    | some field =>
      match convert a.value field.kind with
      | none => .error (.invalidValue s.name field.name a.value field.kind at_)
      | some value => bindAttributes s at_ (Bound.put values field.name value) rest

/-- The first required attribute without a value. -/
def missingField? (s : Schema) (values : List (String × FieldValue)) : Option Schema.Field :=
  s.fields.find? fun field => field.required && !values.any (·.1 = field.name)

/-- The first required child that is not among those bound. -/
def missingChild? (s : Schema) (children : List Bound) : Option String :=
  s.requiredChildren.find? fun name => !children.any (·.name = name)

mutual

/-- An element of any name, checked against `s`. -/
def bindNode (s : Schema) : Markup.Element → Except Error Bound
  | ⟨_, attributes, children, at_⟩ =>
    match bindAttributes s at_ [] attributes with
    | .error e => .error e
    | .ok values =>
      match missingField? s values with
      | some field => .error (.missingAttribute s.name field.name at_)
      | none =>
        match bindChildren s [] children with
        | .error e => .error e
        | .ok bound =>
          match missingChild? s bound with
          | some child => .error (.missingChild s.name child)
          | none => .ok ⟨s.name, values, bound, at_⟩

/-- The children of an element, added to those already bound. -/
def bindChildren (s : Schema) (done : List Bound) :
    List Markup.Element → Except Error (List Bound)
  | [] => .ok done
  | child :: rest =>
    match s.child? child.name with
    | none => .error (.unknownElement s.name child.name child.position)
    | some inner =>
      if !inner.repeatable && done.any (·.name = inner.name) then
        .error (.duplicateElement s.name inner.name child.position)
      else
        match bindNode inner child with
        | .error e => .error e
        | .ok bound => bindChildren s (done ++ [bound]) rest

end

/-- A root element, checked against `s`. -/
def bind (s : Schema) (root : Markup.Element) : Except Error Bound :=
  if root.name = s.name then bindNode s root
  else .error (.unexpectedRoot s.name root.name root.position)

end SourceLint.Binding
