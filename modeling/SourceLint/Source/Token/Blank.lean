import SourceLint.Text.Blank

/-! # White space and comments between tokens

Comments that do not document anything are blank, and so are the two marks of
writing direction. Block comments nest. The lengths here count characters.
-/

namespace SourceLint.Source

/-- The character separates tokens. -/
def isSpace (c : Char) : Bool :=
  Text.isBlank c || c = '\u200e' || c = '\u200f'

/-- The length of a block comment whose first `depth` openings have been read. -/
def blockLengthFrom (depth n : Nat) : List Char → Option Nat
  | '/' :: '*' :: cs => blockLengthFrom (depth + 1) (n + 2) cs
  | '*' :: '/' :: cs =>
    if depth ≤ 1 then some (n + 2) else blockLengthFrom (depth - 1) (n + 2) cs
  | _ :: cs => blockLengthFrom depth (n + 1) cs
  | [] => none

/-- The length of the block comment in front, if it is closed. -/
def blockLength? (cs : List Char) : Option Nat :=
  blockLengthFrom 0 0 cs

/-- The number of characters before the line feed. -/
def lineLength (cs : List Char) : Nat :=
  (cs.takeWhile (· ≠ '\n')).length

/-- The length of the comment in front, when it documents nothing. -/
def plainComment? (cs : List Char) : Option Nat :=
  match cs with
  | '/' :: '/' :: '/' :: '/' :: _ => some (lineLength cs)
  | '/' :: '/' :: '/' :: _ => none
  | '/' :: '/' :: '!' :: _ => none
  | '/' :: '/' :: _ => some (lineLength cs)
  | '/' :: '*' :: '*' :: '/' :: _ => some 4
  | '/' :: '*' :: '*' :: '*' :: _ => blockLength? cs
  | '/' :: '*' :: '*' :: _ => none
  | '/' :: '*' :: '!' :: _ => none
  | '/' :: '*' :: _ => blockLength? cs
  | _ => none

/-- The length of the space or the plain comment in front. -/
def blank? (cs : List Char) : Option Nat :=
  match cs with
  | c :: _ => if isSpace c then some 1 else plainComment? cs
  | [] => none

/-- What is left after `skip` characters and then all white space and comments. -/
def dropBlanks : (skip : Nat) → List Char → List Char
  | _, [] => []
  | skip + 1, _ :: cs => dropBlanks skip cs
  | 0, c :: cs =>
    match blank? (c :: cs) with
    | some n => dropBlanks (n - 1) cs
    | none => c :: cs

end SourceLint.Source
