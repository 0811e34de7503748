import SourceLint.Source.Token

/-! # Syntax trees

A tree keeps of a source file what can tell whether a function is used: names that
are defined, called, imported or referred to, and which items and attributes
enclose them. Everything else only groups its parts. The parts of a node are in the
order in which a reader of the whole syntax tree visits them.
-/

namespace SourceLint.Source

/-- An attribute of an item. -/
structure Attribute where
  /-- The path starts with a separator. -/
  absolute : Bool
  /-- The names of the path. -/
  path : List String
  /-- The spelling without any spaces. -/
  text : String
  deriving Repr, DecidableEq, Inhabited

/-- What an item is, as far as names are concerned. -/
inductive ItemKind (W : Name → Prop) where
  /-- A free function, and whether it has a visibility of its own. -/
  | function (name : Word W) (visible : Bool)
  /-- A function of an implementation, and whether it has a visibility of its own. -/
  | method (name : Word W) (visible : Bool)
  /-- An implementation, and whether it is one of a trait. -/
  | implementation (ofTrait : Bool)
  | module
  /-- Any other item. -/
  | other
  deriving Repr, Inhabited

/-- A node of a syntax tree. -/
inductive Node (W : Name → Prop) where
  /-- A path that stands for a value, by its last name. -/
  | path (name : Word W) (parts : List (Node W))
  /-- A call of what an expression yields. -/
  | call (attributes : List (Node W)) (callee : Node W) (arguments : List (Node W))
  | methodCall (name : Word W) (parts : List (Node W))
  /-- A name that an import ends with. -/
  | imported (name : Word W)
  /-- An operation whose attributes belong to its first operand. -/
  | operation (first : Node W) (parts : List (Node W))
  | item (kind : ItemKind W) (attributes : List Attribute) (parts : List (Node W))
  /-- Anything else. -/
  | group (parts : List (Node W))
  /-- A part that is accepted but not looked into. -/
  | unread
  deriving Repr, Inhabited

/-- The syntax tree of a file. -/
structure Tree (W : Name → Prop) where
  attributes : List Attribute
  /-- The values that its attributes have. -/
  values : List (Node W)
  items : List (Node W)
  deriving Repr, Inhabited

/-- The node with the values of further attributes, which its first operand takes. -/
def Node.attach {W : Name → Prop} (values : List (Node W)) : Node W → Node W
  | path name parts => .path name (values ++ parts)
  | call attributes callee arguments => .call (values ++ attributes) callee arguments
  | methodCall name parts => .methodCall name (values ++ parts)
  | imported name => .imported name
  | operation first rest => .operation (first.attach values) rest
  | item kind attributes parts => .item kind attributes (values ++ parts)
  | group parts => .group (values ++ parts)
  | unread => .unread

end SourceLint.Source
