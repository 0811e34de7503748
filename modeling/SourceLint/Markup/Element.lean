import SourceLint.Position

/-! # Elements

What a configuration document says, without its spelling: named elements with
attributes and child elements. Text between the tags is not kept. An element
that was read from a text has the position of its opening tag; one built by
hand need not have any.
-/

namespace SourceLint.Markup

/-- A name and its value, both without their spelling. -/
structure Attribute where
  name : String
  value : String
  deriving Repr, DecidableEq, BEq, Inhabited

/-- An element with its attributes and children in document order. -/
structure Element where
  name : String
  attributes : List Attribute
  children : List Element
  position : Option Position
  deriving Repr, BEq, Inhabited

/-- The value of the first attribute of that name. -/
def Element.attribute? (e : Element) (name : String) : Option String :=
  (e.attributes.find? (·.name = name)).map (·.value)

end SourceLint.Markup
