import SourceLint.Position

/-! # Token trees

A source text is read as trees of tokens: what stands between two matching
delimiters is one token. A doc comment counts as the attribute it abbreviates.
Only words keep their position, since only names are ever located.

Trees are read from words of which something is known, such as that they stand in one
text, and whatever is made of a tree keeps them as they are. So it is known of every name
in the result too.
-/

namespace SourceLint.Source

/-- A kind of brackets. -/
inductive Delimiter where
  | parenthesis
  | bracket
  | brace
  deriving Repr, DecidableEq, BEq, Inhabited

/-- The opening bracket. -/
def Delimiter.opening : Delimiter → Char
  | parenthesis => '('
  | bracket => '['
  | brace => '\x7b'

/-- The closing bracket. -/
def Delimiter.closing : Delimiter → Char
  | parenthesis => ')'
  | bracket => ']'
  | brace => '\x7d'

/-- A name and where it stands. -/
structure Name where
  text : String
  position : Position
  deriving Repr, DecidableEq, Inhabited

/-- A name of which `W` holds. -/
structure Word (W : Name → Prop) extends Name where
  holds : W toName
  deriving Repr

/-- A token tree. -/
inductive Token (W : Name → Prop) where
  /-- An identifier or a keyword, a raw identifier with its marker. -/
  | word (name : Word W)
  /-- One character of punctuation, and whether another one follows at once. -/
  | mark (c : Char) (joint : Bool)
  /-- A literal as it is spelled. -/
  | literal (text : String)
  /-- What stands between two delimiters. -/
  | group (delimiter : Delimiter) (inside : List (Token W))
  deriving Repr, Inhabited

namespace Token

variable {W : Name → Prop}

mutual

/-- The spelling of a token without any spaces, those in literals included. -/
def compact : Token W → String
  | word name => name.text
  | mark c _ => c.toString
  | literal text => String.ofList (text.toList.filter (· ≠ ' '))
  | group d inside => d.opening.toString ++ compactAll inside ++ d.closing.toString

/-- The spelling of tokens without any spaces. -/
def compactAll : List (Token W) → String
  | [] => ""
  | t :: ts => compact t ++ compactAll ts

end

mutual

/-- The number of tokens in a tree. -/
def count : Token W → Nat
  | group _ inside => countAll inside + 1
  | _ => 1

/-- The number of tokens in a list of trees. -/
def countAll : List (Token W) → Nat
  | [] => 0
  | t :: ts => count t + countAll ts

end

end Token

end SourceLint.Source
