/-! # Schemas

A schema says which attributes and children an element may have, of what kind
each attribute's value is, and what must not be missing. Whether an element may
stand twice under one parent is said by the element's own schema.
-/

namespace SourceLint

/-- What the value of an attribute is. -/
inductive FieldKind where
  /-- Any text, kept as it is. -/
  | text
  /-- A signed integer. -/
  | integer
  /-- One of `true` and `false`. -/
  | boolean
  /-- The name of a severity. -/
  | severity
  deriving Repr, DecidableEq, BEq

/-- A kind as messages name it. -/
def FieldKind.describe : FieldKind → String
  | text => "text"
  | integer => "an integer"
  | boolean => "a boolean (true, false)"
  | severity => "a severity (error, warning)"

/-- What is said about one attribute. -/
structure Schema.Field where
  name : String
  kind : FieldKind
  required : Bool
  deriving Repr, DecidableEq, BEq

/-- What is said about one element. -/
structure Schema where
  name : String
  fields : List Schema.Field
  children : List Schema
  requiredChildren : List String
  repeatable : Bool
  deriving Repr, Inhabited

namespace Schema

/-- What is said about the attribute of that name. -/
def field? (s : Schema) (name : String) : Option Field :=
  s.fields.find? (·.name = name)

/-- The schema of the child element of that name. -/
def child? (s : Schema) (name : String) : Option Schema :=
  s.children.find? (·.name = name)

end Schema

end SourceLint
