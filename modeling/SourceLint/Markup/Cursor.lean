import SourceLint.Markup.Error

/-! # Reading characters of markup

A cursor is what is left of a text together with the position of its first
character. The readers here take one lexical piece off the front.
-/

namespace SourceLint.Markup

/-- What is left of a text, and where it starts. -/
structure Cursor where
  rest : List Char
  position : Position
  deriving Repr, Inhabited

/-- Reads a piece off the front of a text. -/
abbrev Reader (α : Type) := Cursor → Except Error (α × Cursor)

namespace Cursor

/-- The cursor at the front of a text. -/
def ofChars (cs : List Char) : Cursor := ⟨cs, .start⟩

/-- The cursor after the first `n` characters. -/
def advance (n : Nat) (c : Cursor) : Cursor :=
  ⟨c.rest.drop n, c.position.after (c.rest.take n)⟩

/-- The cursor after the characters in front that satisfy `p`. -/
def skipWhile (p : Char → Bool) (c : Cursor) : Cursor :=
  ⟨c.rest.dropWhile p, c.position.after (c.rest.takeWhile p)⟩

/-- The cursor after white space. -/
def skipSpaces (c : Cursor) : Cursor := c.skipWhile isSpace

/-- The text goes on with `s`. -/
def startsWith (s : String) (c : Cursor) : Bool :=
  s.toList.isPrefixOf c.rest

/-- The text goes on with white space. -/
def startsWithSpace (c : Cursor) : Bool :=
  match c.rest with
  | ch :: _ => isSpace ch
  | [] => false

/-- The character `expected` and no other. -/
def expect (expected : Char) : Reader Unit := fun c =>
  match c.rest with
  | [] => .error .endOfText
  | ch :: _ =>
    if ch = expected then .ok ((), c.advance 1)
    else .error (.expectedCharacter expected ch c.position)

/-- The text `expected` and no other. -/
def expectText (expected : String) : Reader Unit := fun c =>
  if c.startsWith expected then .ok ((), c.advance expected.length)
  else .error (.expectedText expected c.position)

/-- The allowed characters of `cs`, which starts at `p`, up to where `stop` holds. -/
def runFrom (stop : List Char → Bool) : List Char → Position → Except Error (List Char × Cursor)
  | [], p => .ok ([], ⟨[], p⟩)
  | ch :: cs, p =>
    if ¬ isAllowed ch then .error (.badCharacter ch p)
    else if stop (ch :: cs) then .ok ([], ⟨ch :: cs, p⟩)
    else (runFrom stop cs (p.next ch)).map fun (run, c) => (ch :: run, c)

/-- Allowed characters up to where `stop` holds of the rest, or to the end. -/
def run (stop : List Char → Bool) : Reader (List Char) := fun c =>
  runFrom stop c.rest c.position

/-- Allowed characters up to the text `mark`, or to the end. -/
def runTo (mark : String) : Reader (List Char) :=
  run fun cs => mark.toList.isPrefixOf cs

/-- A name without regard to colons. -/
def name : Reader (List Char) := fun c =>
  match c.rest with
  | [] => .error (.badName c.position)
  | ch :: cs =>
    if isNameStart ch then
      .ok (ch :: cs.takeWhile isNameChar, (c.advance 1).skipWhile isNameChar)
    else .error (.badName c.position)

end Cursor

/-- A name in two parts around a colon; the first part may be empty. -/
structure QualifiedName where
  qualifier : String
  «local» : String
  deriving Repr, DecidableEq, BEq, Inhabited

namespace QualifiedName

/-- A qualified name as a tag spells it. -/
def render (n : QualifiedName) : String :=
  if n.qualifier = "" then n.local else n.qualifier ++ ":" ++ n.local

/-- A part of a qualified name starts like a name. -/
def startsWell : List Char → Bool
  | [] => true
  | ch :: _ => isNameStart ch

/-- The qualified name that a run of name characters spells. -/
def ofChars? (cs : List Char) : Option QualifiedName :=
  match cs.span (· ≠ ':') with
  | (whole, []) =>
    if whole.isEmpty ∨ ¬ startsWell whole then none else some ⟨"", String.ofList whole⟩
  | (first, _ :: second) =>
    if ':' ∈ second ∨ ¬ startsWell first ∨ second.isEmpty ∨ ¬ startsWell second then none
    else some ⟨String.ofList first, String.ofList second⟩

/-- A qualified name off the front of a text. -/
def read : Reader QualifiedName := fun c =>
  match ofChars? (c.rest.takeWhile isNameChar) with
  | some n => .ok (n, c.skipWhile isNameChar)
  | none => .error (.badName c.position)

end QualifiedName

end SourceLint.Markup
