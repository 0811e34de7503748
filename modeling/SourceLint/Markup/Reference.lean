import SourceLint.Markup.Cursor

/-! # References

An ampersand in text or in an attribute value starts a reference: to one of the
five predefined entities, or to a character by its code.
-/

namespace SourceLint.Markup

/-- What a reference denotes. -/
inductive Reference where
  | character (c : Char)
  /-- An entity that nothing defines. -/
  | entity (name : String)
  deriving Repr, DecidableEq

namespace Reference

/-- The value of a digit in bases up to sixteen. -/
def digitValue (c : Char) : Nat :=
  if c.isDigit then c.toNat - 48
  else if 'a' ≤ c then c.toNat - 87
  else c.toNat - 55

/-- A hexadecimal digit. -/
def isHexDigit (c : Char) : Bool :=
  c.isDigit || ('a' ≤ c && c ≤ 'f') || ('A' ≤ c && c ≤ 'F')

/-- The number that digits spell in a base. -/
def numberOf (base : Nat) (digits : List Char) : Nat :=
  digits.foldl (fun n c => base * n + digitValue c) 0

/-- The character of a code, or the replacement character where there is none. -/
def characterOf (code : Nat) : Char :=
  if code < 0xD800 ∨ (0xDFFF < code ∧ code < 0x110000) then Char.ofNat code else '\ufffd'

/-- The allowed character that digits name, when they are a number of 32 bits. -/
def ofDigits? (base : Nat) (digits : List Char) : Option Reference :=
  let code := numberOf base digits
  let c := characterOf code
  if digits.isEmpty ∨ UInt32.size ≤ code ∨ ¬ isAllowed c then none else some (character c)

/-- The reference to an entity. -/
def ofName (name : List Char) : Reference :=
  match String.ofList name with
  | "quot" => character '"'
  | "amp" => character '&'
  | "apos" => character '\''
  | "lt" => character '<'
  | "gt" => character '>'
  | other => entity other

/-- The text after the semicolon that must end a reference. -/
def afterSemicolon (r : Reference) : List Char → Option (Reference × List Char)
  | ';' :: rest => some (r, rest)
  | _ => none

/-- The reference whose ampersand was just read, and what follows its semicolon. -/
def read? : List Char → Option (Reference × List Char)
  | '#' :: 'x' :: cs =>
    (ofDigits? 16 (cs.takeWhile isHexDigit)).bind (afterSemicolon · (cs.dropWhile isHexDigit))
  | '#' :: cs =>
    (ofDigits? 10 (cs.takeWhile Char.isDigit)).bind (afterSemicolon · (cs.dropWhile Char.isDigit))
  | ch :: cs =>
    if isNameStart ch then
      afterSemicolon (ofName (ch :: cs.takeWhile isNameChar)) (cs.dropWhile isNameChar)
    else none
  | [] => none

end Reference

/-- A character of an attribute value outside references: white space becomes a
space, and a carriage return before a line feed vanishes. -/
def literalInValue (c : Char) (rest : List Char) : List Char :=
  if c = '\r' ∧ rest.head? = some '\n' then []
  else if c = '\t' ∨ c = '\n' ∨ c = '\r' then [' ']
  else [c]

/-- The value that the characters of an attribute denote, read in at most `steps`
steps; each takes a character or a reference. -/
def denotedIn : Nat → List Char → Position → Except Error (List Char)
  | 0, _, _ => .ok []
  | _ + 1, [], _ => .ok []
  | steps + 1, '&' :: cs, p =>
    match Reference.read? cs with
    | none => .error (.badReference p)
    | some (.entity name, _) => .error (.unknownEntity name p)
    | some (.character c, rest) =>
      let used := (cs.take (cs.length - rest.length))
      (denotedIn steps rest ((p.next '&').after used)).map (c :: ·)
  | steps + 1, c :: cs, p =>
    (denotedIn steps cs (p.next c)).map (literalInValue c cs ++ ·)

/-- The value that the raw characters of an attribute denote. -/
def denoted (cs : List Char) (p : Position) : Except Error String :=
  (denotedIn cs.length cs p).map String.ofList

/-- Check that every reference of a text between tags denotes something. -/
def checkText (cs : List Char) (p : Position) : Except Error Unit :=
  (denoted cs p).map fun _ => ()

end SourceLint.Markup
