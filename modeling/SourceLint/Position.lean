/-! # Positions in a text

A position is a line and a column, both counted from one. The column counts
characters since the last line feed, so a carriage return or a byte order mark
is a character like any other.
-/

namespace SourceLint

/-- A place in a text, by line and column. -/
structure Position where
  line : Nat
  column : Nat
  deriving Repr, DecidableEq, BEq, Inhabited

namespace Position

/-- The place of the first character of a text. -/
def start : Position := ⟨1, 1⟩

/-- The place right after the character `c` that stands at `p`. -/
def next (p : Position) (c : Char) : Position :=
  if c = '\n' then ⟨p.line + 1, 1⟩ else ⟨p.line, p.column + 1⟩

/-- The place right after the text `cs` that starts at `p`. -/
def after (p : Position) (cs : List Char) : Position :=
  cs.foldl next p

/-- Lines first, then columns. -/
instance : Ord Position :=
  ⟨compareLex (compareOn line) (compareOn column)⟩

/-- `p` stands at `q` or before it. -/
def le (p q : Position) : Bool :=
  (compare p q).isLE

/-- A position as messages show it: `line:column`. -/
def render (p : Position) : String :=
  toString p.line ++ ":" ++ toString p.column

end Position

end SourceLint
