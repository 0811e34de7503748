import SourceLint.Source.Grammar.Reader

/-! # Categories of syntax

The categories that nest in one another, and what each of them reads to. A grammar
reads every category; the modules beside this one say how each is made of the
others, given a grammar for those.
-/

namespace SourceLint.Source

variable {W : Name → Prop}

/-- How tightly an operator binds. -/
inductive Precedence where
  | jump
  | assign
  | range
  | or
  | and
  | compare
  | bitOr
  | bitXor
  | bitAnd
  | shift
  | sum
  | product
  | cast
  deriving Repr, DecidableEq, Inhabited

/-- The place among the others, the loosest first. -/
def Precedence.rank : Precedence → Nat
  | jump => 0
  | assign => 1
  | range => 2
  | or => 3
  | and => 4
  | compare => 5
  | bitOr => 6
  | bitXor => 7
  | bitAnd => 8
  | shift => 9
  | sum => 10
  | product => 11
  | cast => 12

/-- What an expression is, as far as the syntax around it asks. -/
inductive Shape where
  /-- Its own brace ends a statement. -/
  | block
  /-- A macro, and whether its tokens stand in braces. -/
  | invocation (braced : Bool)
  | range
  | comparison
  /-- Anything else. -/
  | other
  deriving Repr, DecidableEq, Inhabited

/-- An expression that has been read. -/
structure Expression (W : Name → Prop) where
  node : Node W
  shape : Shape := .other
  deriving Repr, Inhabited

/-- An expression of no special shape that only groups its parts. -/
def Expression.ofParts (parts : List (Node W)) : Expression W :=
  { node := .group parts }

/-- The expression with the values of attributes before it. -/
def Expression.attach (values : List (Node W)) (e : Expression W) : Expression W :=
  { e with node := e.node.attach values }

/-- What a type is, as far as the syntax around it asks. -/
inductive TypeShape where
  /-- One name, perhaps with arguments in angle brackets. -/
  | name
  /-- Any other path without a qualified self. -/
  | path
  /-- A single bound in the place of a type. -/
  | bound
  /-- Anything else. -/
  | other
  deriving Repr, DecidableEq, Inhabited

/-- A type that has been read, by the expressions in it. -/
structure TypeTree (W : Name → Prop) where
  parts : List (Node W)
  shape : TypeShape := .other
  deriving Repr, Inhabited

/-- A bound that has been read. -/
structure BoundTree (W : Name → Prop) where
  parts : List (Node W)
  /-- It names a trait. -/
  isTrait : Bool
  deriving Repr, Inhabited

/-- A pattern that has been read. -/
structure PatternTree (W : Name → Prop) where
  parts : List (Node W)
  /-- It is a range without one of its ends. -/
  halfOpen : Bool := false
  deriving Repr, Inhabited

/-- What follows a name of a path. -/
inductive Arguments where
  | none
  /-- Angle brackets, and whether nothing stands between them. -/
  | angles (empty : Bool)
  | parentheses
  deriving Repr, DecidableEq, Inhabited

def Arguments.isEmpty : Arguments → Bool
  | none => true
  | angles empty => empty
  | parentheses => false

/-- A path that has been read. -/
structure PathTree (W : Name → Prop) where
  /-- It starts with a self type in angle brackets. -/
  qualified : Bool := false
  /-- It starts with a separator. -/
  absolute : Bool := false
  leading : List (Word W) := []
  last : Word W
  /-- What follows the last name. -/
  arguments : Arguments := .none
  /-- No name has arguments. -/
  bare : Bool := true
  parts : List (Node W) := []
  deriving Repr

/-- Attributes that have been read, with the values they have. -/
structure Attributes (W : Name → Prop) where
  marks : List Attribute := []
  values : List (Node W) := []
  deriving Repr, Inhabited

/-- The attributes of two places, those of the first before those of the second. -/
def Attributes.append (a b : Attributes W) : Attributes W :=
  ⟨a.marks ++ b.marks, a.values ++ b.values⟩

instance : Append (Attributes W) := ⟨Attributes.append⟩

/-- The categories of syntax that nest in one another. -/
inductive Category (W : Name → Prop) where
  /-- A type, with `+` between bounds or without. -/
  | type (plus : Bool)
  /-- A bound, with captures or `const` in it or without. -/
  | bound (captures const : Bool)
  /-- A pattern without alternatives. -/
  | pattern
  /-- An expression, with struct literals or without. -/
  | expression (structs : Bool)
  /-- An expression where a statement or the result of a case begins. -/
  | eager
  /-- An operand of a binary operator. -/
  | operand (structs : Bool)
  /-- What goes on from a left operand, by operators that bind at least so tightly. -/
  | operations (left : Expression W) (structs : Bool) (floor : Precedence)
  /-- The statements of a block. -/
  | statements
  /-- An item after its attributes. -/
  | item (attributes : Attributes W)
  /-- The tree of an import, with a separator in front of a path or without. -/
  | imports (root : Bool)
  /-- The named fields of a struct. -/
  | fields

/-- What a category reads to. An import may be accepted without being looked into. -/
abbrev Category.Result : Category W → Type
  | type _ => TypeTree W
  | bound _ _ => BoundTree W
  | pattern => PatternTree W
  | expression _ => Expression W
  | eager => Expression W
  | operand _ => Expression W
  | operations _ _ _ => Expression W
  | statements => List (Node W)
  | item _ => Node W
  | imports _ => Option (List (Node W))
  | fields => List (Node W)

/-- Reads every category. -/
def Grammar (W : Name → Prop) := (c : Category W) → Reader W c.Result

namespace Grammar

def type (g : Grammar W) (plus : Bool) : Reader W (TypeTree W) := g (.type plus)

def bound (g : Grammar W) (captures const : Bool) : Reader W (BoundTree W) := g (.bound captures const)

def pattern (g : Grammar W) : Reader W (PatternTree W) := g .pattern

def expression (g : Grammar W) (structs : Bool) : Reader W (Expression W) := g (.expression structs)

def eager (g : Grammar W) : Reader W (Expression W) := g .eager

def operand (g : Grammar W) (structs : Bool) : Reader W (Expression W) := g (.operand structs)

def operations (g : Grammar W) (left : Expression W) (structs : Bool) (floor : Precedence) :
    Reader W (Expression W) :=
  g (.operations left structs floor)

def statements (g : Grammar W) : Reader W (List (Node W)) := g .statements

def item (g : Grammar W) (attributes : Attributes W) : Reader W (Node W) := g (.item attributes)

def imports (g : Grammar W) (root : Bool) : Reader W (Option (List (Node W))) := g (.imports root)

def fields (g : Grammar W) : Reader W (List (Node W)) := g .fields

end Grammar

end SourceLint.Source
