import SourceLint.Position
import SourceLint.Schema

/-! # Mismatches with a schema

Each cause carries the names that its message shows and, except for a missing
child, the position of the element at fault when there is one.
-/

namespace SourceLint.Binding

/-- Why an element does not fit a schema. -/
inductive Error where
  /-- The root element has another name. -/
  | unexpectedRoot (expected found : String) (at_ : Option Position)
  /-- A child that the parent does not declare. -/
  | unknownElement (parent element : String) (at_ : Option Position)
  /-- A second child where one is allowed. -/
  | duplicateElement (parent element : String) (at_ : Option Position)
  /-- An attribute that the element does not declare. -/
  | unknownAttribute (element field : String) (at_ : Option Position)
  /-- A value that is not of the declared kind. -/
  | invalidValue (element field value : String) (expected : FieldKind) (at_ : Option Position)
  /-- An attribute that must be there. -/
  | missingAttribute (element field : String) (at_ : Option Position)
  /-- A child that must be there. -/
  | missingChild (element child : String)
  deriving Repr, DecidableEq, BEq

namespace Error

/-- Where the element at fault stands. -/
def position? : Error → Option Position
  | unexpectedRoot _ _ p => p
  | unknownElement _ _ p => p
  | duplicateElement _ _ p => p
  | unknownAttribute _ _ p => p
  | invalidValue _ _ _ _ p => p
  | missingAttribute _ _ p => p
  | missingChild _ _ => none

/-- The cause in words. -/
def message : Error → String
  | unexpectedRoot expected found _ =>
    "expected root element <" ++ expected ++ ">, found <" ++ found ++ ">"
  | unknownElement parent element _ =>
    "unknown element <" ++ element ++ "> inside <" ++ parent ++ ">"
  | duplicateElement parent element _ =>
    "duplicate element <" ++ element ++ "> inside <" ++ parent ++ ">"
  | unknownAttribute element field _ =>
    "unknown attribute `" ++ field ++ "` on <" ++ element ++ ">"
  | invalidValue element field value expected _ =>
    "attribute `" ++ field ++ "` on <" ++ element ++ "> expects " ++ expected.describe ++
      ", found \"" ++ value ++ "\""
  | missingAttribute element field _ =>
    "<" ++ element ++ "> is missing required attribute `" ++ field ++ "`"
  | missingChild element child => "<" ++ element ++ "> is missing required child <" ++ child ++ ">"

end Error

end SourceLint.Binding
