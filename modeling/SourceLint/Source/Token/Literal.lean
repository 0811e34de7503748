import SourceLint.Text.Identifier

/-! # Literals

The length in characters of the literal that stands in front of a text: strings,
byte strings and C strings in their cooked and raw forms, bytes, characters,
floats and integers, each with an optional suffix that is an identifier.
-/

namespace SourceLint.Source

/-- The length of the identifier in front, zero when there is none. -/
def identifierLength : List Char → Nat
  | [] => 0
  | c :: cs =>
    if Text.isIdentifierStart c then (cs.takeWhile Text.isIdentifierChar).length + 1 else 0

/-- A decimal digit. -/
def isDigit (c : Char) : Bool :=
  '0' ≤ c && c ≤ '9'

/-- The value of a hexadecimal digit. -/
def hexDigit? (c : Char) : Option Nat :=
  if isDigit c then some (c.toNat - '0'.toNat)
  else if 'a' ≤ c ∧ c ≤ 'f' then some (c.toNat - 'a'.toNat + 10)
  else if 'A' ≤ c ∧ c ≤ 'F' then some (c.toNat - 'A'.toNat + 10)
  else none

/-- A hexadecimal digit. -/
def isHex (c : Char) : Bool :=
  (hexDigit? c).isSome

/-- What a quoted literal is made of. -/
inductive Contents where
  /-- Characters. -/
  | text
  /-- ASCII bytes. -/
  | bytes
  /-- Characters other than the null. -/
  | terminated
  deriving Repr, DecidableEq, BEq

/-- The code point between the braces of a Unicode escape, and its length with the
closing brace. It has one to six digits; underscores after the first do not count. -/
def codePointFrom (value digits n : Nat) : List Char → Option (Nat × Nat)
  | [] => none
  | c :: cs =>
    if c = '_' ∧ 0 < digits then codePointFrom value digits (n + 1) cs
    else if c = '\x7d' ∧ 0 < digits then
      if value < 0xD800 ∨ (0xE000 ≤ value ∧ value < 0x110000) then some (value, n + 1) else none
    else
      match hexDigit? c with
      | some d => if digits = 6 then none else codePointFrom (16 * value + d) (digits + 1) (n + 1) cs
      | none => none

/-- The length of the Unicode escape after its letter. -/
def unicodeEscape? (contents : Contents) : List Char → Option Nat
  | '\x7b' :: cs =>
    match codePointFrom 0 0 1 cs with
    | some (value, n) => if contents = .terminated ∧ value = 0 then none else some n
    | none => none
  | _ => none

/-- The two digits of a hexadecimal escape are allowed. -/
def hexEscape (contents : Contents) (a b : Char) : Bool :=
  match contents with
  | .text => '0' ≤ a && a ≤ '7' && isHex b
  | .bytes => isHex a && isHex b
  | .terminated => isHex a && isHex b && !(a = '0' && b = '0')

/-- The letters of one-character escapes. -/
def simpleEscapes (contents : Contents) : List Char :=
  ['n', 'r', 't', '\\', '\'', '"'] ++ (if contents = .terminated then [] else ['0'])

/-- The length of an escape after its backslash. -/
def escape? (contents : Contents) : List Char → Option Nat
  | 'x' :: a :: b :: _ => if hexEscape contents a b then some 3 else none
  | 'u' :: cs =>
    if contents = .bytes then none else (unicodeEscape? contents cs).map (· + 1)
  | c :: _ => if c ∈ simpleEscapes contents then some 1 else none
  | [] => none

/-- The length of the white space that a line continuation skips, `last` being the
character before. A carriage return must be followed by a line feed, and the
literal must go on. -/
def continuation? (last : Char) (n : Nat) : List Char → Option Nat
  | [] => none
  | c :: cs =>
    if last = '\r' then if c = '\n' then continuation? '\n' (n + 1) cs else none
    else if c = ' ' ∨ c = '\t' ∨ c = '\n' ∨ c = '\r' then continuation? c (n + 1) cs
    else some n

/-- The number of characters that belong with the character `c` of a cooked literal. -/
def cookedUnit? (contents : Contents) (c : Char) (cs : List Char) : Option Nat :=
  if c = '\r' then if cs.head? = some '\n' then some 1 else none
  else if c = '\\' then
    match cs with
    | d :: ds =>
      if d = '\n' ∨ d = '\r' then (continuation? d 1 ds) else escape? contents cs
    | [] => none
  else if contents = .bytes ∧ 0x80 ≤ c.toNat then none
  else if contents = .terminated ∧ c = '\x00' then none
  else some 0

/-- The number of characters that belong with the character `c` of a raw literal. -/
def rawUnit? (contents : Contents) (c : Char) (cs : List Char) : Option Nat :=
  if c = '\\' then some 0 else cookedUnit? contents c cs

/-- The length up to and with the closing quote and the hash marks that follow it,
`skip` characters being part of what has been looked at already. -/
def closingFrom (unit? : Char → List Char → Option Nat) (hashes : List Char) (n : Nat) :
    (skip : Nat) → List Char → Option Nat
  | _, [] => none
  | skip + 1, _ :: cs => closingFrom unit? hashes (n + 1) skip cs
  | 0, c :: cs =>
    if c = '"' ∧ hashes.isPrefixOf cs then some (n + 1 + hashes.length)
    else
      match unit? c cs with
      | some more => closingFrom unit? hashes (n + 1) more cs
      | none => none

/-- A length with the identifier that follows as its suffix. -/
def withSuffix (n : Nat) (cs : List Char) : Nat :=
  n + identifierLength (cs.drop n)

/-- The length of a cooked literal whose first `n` characters open it. -/
def cooked? (contents : Contents) (n : Nat) (cs : List Char) : Option Nat :=
  (closingFrom (cookedUnit? contents) [] n 0 (cs.drop n)).map (withSuffix · cs)

/-- The length of a raw literal whose first `n` characters announce it. -/
def raw? (contents : Contents) (n : Nat) (cs : List Char) : Option Nat :=
  let body := cs.drop n
  let hashes := body.takeWhile (· = '#')
  if hashes.length ≤ 255 ∧ (body.drop hashes.length).head? = some '"' then
    let start := n + hashes.length + 1
    (closingFrom (rawUnit? contents) hashes start 0 (cs.drop start)).map (withSuffix · cs)
  else none

/-- The length of a quoted literal whose first characters, `n` of them, open it and
whose content has `more` characters. -/
def quoted? (n more : Nat) (cs : List Char) : Option Nat :=
  if (cs.drop (n + more)).head? = some '\'' then some (withSuffix (n + more + 1) cs) else none

/-- The length of a byte literal. -/
def byte? (cs : List Char) : Option Nat :=
  match cs with
  | 'b' :: '\'' :: '\\' :: rest => (escape? .bytes rest).bind fun n => quoted? 2 (n + 1) cs
  | 'b' :: '\'' :: c :: _ => if c.toNat < 0x80 then quoted? 2 1 cs else none
  | _ => none

/-- The length of a character literal. -/
def character? (cs : List Char) : Option Nat :=
  match cs with
  | '\'' :: '\\' :: rest => (escape? .text rest).bind fun n => quoted? 1 (n + 1) cs
  | '\'' :: _ :: _ => quoted? 1 1 cs
  | _ => none

def isDigitOrUnderscore (c : Char) : Bool :=
  isDigit c || c = '_'

/-- The length up to the end of an exponent, whose sign and first digit may have been
read. -/
def exponentFrom (signed valued : Bool) (n : Nat) : List Char → Option Nat
  | [] => if valued then some n else none
  | c :: cs =>
    if c = '+' ∨ c = '-' then
      if valued then some n else if signed then none else exponentFrom true valued (n + 1) cs
    else if isDigit c then exponentFrom signed true (n + 1) cs
    else if c = '_' then exponentFrom signed valued (n + 1) cs
    else if valued then some n else none

/-- An exponent letter comes next. -/
def startsExponent : List Char → Bool
  | c :: _ => c = 'e' || c = 'E'
  | [] => false

/-- The length of the digits of a float, without its suffix. An exponent without a
value ends a float before it, if a point has been read. -/
def floatDigits? (cs : List Char) : Option Nat :=
  if !(cs.head?.map isDigit).getD false then none
  else
    let whole := (cs.takeWhile isDigitOrUnderscore).length
    match cs.drop whole with
    | '.' :: rest =>
      if (rest.head?.map fun c => c = '.' || Text.isIdentifierStart c).getD false then none
      else
        let n := whole + 1 + (rest.takeWhile isDigitOrUnderscore).length
        if startsExponent (cs.drop n) then
          some ((exponentFrom false false (n + 1) (cs.drop (n + 1))).getD n)
        else some n
    | rest =>
      if startsExponent rest then exponentFrom false false (whole + 1) (cs.drop (whole + 1))
      else none

/-- The length of the digits of an integer to a base, `n` having been read; `empty`
says that no digit was among them. -/
def digitsFrom (base : Nat) (empty : Bool) (n : Nat) : List Char → Option Nat
  | [] => if empty then none else some n
  | c :: cs =>
    if c = '_' then if empty ∧ base = 10 then none else digitsFrom base empty (n + 1) cs
    else
      match hexDigit? c with
      | some d =>
        if d < base then digitsFrom base false (n + 1) cs
        else if isDigit c ∨ empty then none else some n
      | none => if empty then none else some n

/-- The length of the digits of an integer, without its suffix. -/
def integerDigits? (cs : List Char) : Option Nat :=
  match cs with
  | '0' :: 'x' :: rest => digitsFrom 16 true 2 rest
  | '0' :: 'o' :: rest => digitsFrom 8 true 2 rest
  | '0' :: 'b' :: rest => digitsFrom 2 true 2 rest
  | _ => digitsFrom 10 true 0 cs

/-- A number with its suffix, which must not run into further identifier characters. -/
def number? (n : Nat) (cs : List Char) : Option Nat :=
  let size := withSuffix n cs
  match (cs.drop size).head? with
  | some c => if Text.isIdentifierChar c then none else some size
  | none => some size

/-- The literal is a float. -/
def isFloat (cs : List Char) : Bool :=
  (floatDigits? cs).isSome

/-- The value of the digits of an integer to a base. -/
def digitsValue (base : Nat) (cs : List Char) : Nat :=
  (cs.filterMap hexDigit?).foldl (base * · + ·) 0

/-- The value of an integer to the base that its first characters name. -/
def integerValue (cs : List Char) : Nat :=
  match cs with
  | '0' :: 'x' :: rest => digitsValue 16 rest
  | '0' :: 'o' :: rest => digitsValue 8 rest
  | '0' :: 'b' :: rest => digitsValue 2 rest
  | _ => digitsValue 10 cs

/-- The literal is an integer without a suffix that fits 32 bits. -/
def isIndex (cs : List Char) : Bool :=
  integerDigits? cs = some cs.length && integerValue cs < UInt32.size

/-- The literal is a float that reads as indices with points between them, perhaps with
a point at its end. -/
def isIndexChain (cs : List Char) : Bool :=
  let body := if cs.getLast? = some '.' then cs.dropLast else cs
  (body.splitOn '.').all isIndex

/-- The length of the string literal in front, of any of its six forms. -/
def string? (cs : List Char) : Option Nat :=
  match cs with
  | '"' :: _ => cooked? .text 1 cs
  | 'r' :: _ => raw? .text 1 cs
  | 'b' :: '"' :: _ => cooked? .bytes 2 cs
  | 'b' :: 'r' :: _ => raw? .bytes 2 cs
  | 'c' :: '"' :: _ => cooked? .terminated 2 cs
  | 'c' :: 'r' :: _ => raw? .terminated 2 cs
  | _ => none

/-- The length of the literal in front. -/
def literal? (cs : List Char) : Option Nat :=
  string? cs <|> byte? cs <|> character? cs <|> (floatDigits? cs).bind (number? · cs) <|>
    (integerDigits? cs).bind (number? · cs)

end SourceLint.Source
