import SourceLint.Json.Value

/-! # Reading JSON

A value is read from the front of a list of characters and what follows it is
returned. The recursion is bounded by a step count that `Json.parse?` takes from
the length of the text: every step but one in two consumes a character.
-/

namespace SourceLint.Json

/-- The white space of JSON. -/
def isSpace (c : Char) : Bool :=
  c = ' ' || c = '\n' || c = '\t' || c = '\r'

/-- The text without the white space in front. -/
def skipSpace (cs : List Char) : List Char :=
  cs.dropWhile isSpace

/-- The value of a hexadecimal digit. -/
def hexValue? (c : Char) : Option Nat :=
  if '0' ≤ c ∧ c ≤ '9' then some (c.toNat - 48)
  else if 'a' ≤ c ∧ c ≤ 'f' then some (c.toNat - 87)
  else if 'A' ≤ c ∧ c ≤ 'F' then some (c.toNat - 55)
  else none

/-- The code unit that four hexadecimal digits name. -/
def codeUnit? (a b c d : Char) : Option Nat := do
  return (((← hexValue? a) * 16 + (← hexValue? b)) * 16 + (← hexValue? c)) * 16 + (← hexValue? d)

/-- The character of a one-letter escape. -/
def simpleEscape? (c : Char) : Option Char :=
  if c = '"' ∨ c = '\\' ∨ c = '/' then some c
  else if c = 'n' then some '\n'
  else if c = 'r' then some '\r'
  else if c = 't' then some '\t'
  else if c = 'b' then some '\x08'
  else if c = 'f' then some '\x0c'
  else none

/-- The code units of a string literal up to its closing quote, and what follows. -/
def codeUnits? : List Char → Option (List Nat × List Char)
  | [] => none
  | '"' :: rest => some ([], rest)
  | '\\' :: 'u' :: a :: b :: c :: d :: rest =>
    (codeUnit? a b c d).bind fun n => (codeUnits? rest).map fun (us, r) => (n :: us, r)
  | '\\' :: c :: rest =>
    (simpleEscape? c).bind fun e => (codeUnits? rest).map fun (us, r) => (e.toNat :: us, r)
  | c :: rest =>
    if c = '\\' ∨ c.toNat < 0x20 then none
    else (codeUnits? rest).map fun (us, r) => (c.toNat :: us, r)

/-- The text of code units, each surrogate pair making one character. -/
def textOf? : List Nat → Option (List Char)
  | [] => some []
  | high :: low :: rest =>
    if 0xD800 ≤ high ∧ high < 0xDC00 then
      if 0xDC00 ≤ low ∧ low < 0xE000 then
        (textOf? rest).map (Char.ofNat (0x10000 + (high - 0xD800) * 0x400 + (low - 0xDC00)) :: ·)
      else none
    else if 0xDC00 ≤ high ∧ high < 0xE000 then none
    else (textOf? (low :: rest)).map (Char.ofNat high :: ·)
  | [n] => if 0xD800 ≤ n ∧ n < 0xE000 then none else some [Char.ofNat n]

/-- The text of a string literal after its opening quote, if it denotes one, and what follows. -/
def literal? (cs : List Char) : Option (Option String × List Char) :=
  (codeUnits? cs).map fun (us, rest) => ((textOf? us).map String.ofList, rest)

/-- The object of some fields, each with its name if that denotes a text. -/
def ofFields (fields : List (Option String × Json)) : Json :=
  match fields.mapM fun field => field.1.map (·, field.2) with
  | some named => object named
  | none => misnamed

/-- A decimal digit. -/
def isDigit (c : Char) : Bool :=
  '0' ≤ c && c ≤ '9'

/-- The value of decimal digits. -/
def digitsValue (cs : List Char) : Nat :=
  cs.foldl (fun n c => 10 * n + (c.toNat - 48)) 0

/-- The digits of a whole part: a zero alone, or digits that start with none. -/
def wholePart? : List Char → Option (List Char × List Char)
  | '0' :: rest => some (['0'], rest)
  | cs =>
    let digits := cs.takeWhile isDigit
    if digits.isEmpty then none else some (digits, cs.dropWhile isDigit)

/-- A fraction, empty where there is none. -/
def fraction? : List Char → Option (List Char × List Char)
  | '.' :: rest =>
    let digits := rest.takeWhile isDigit
    if digits.isEmpty then none else some ('.' :: digits, rest.dropWhile isDigit)
  | cs => some ([], cs)

/-- An exponent, empty where there is none. -/
def exponent? : List Char → Option (List Char × List Char)
  | e :: rest =>
    if e = 'e' ∨ e = 'E' then
      let (sign, body) := match rest with
        | '+' :: r => (['+'], r)
        | '-' :: r => (['-'], r)
        | r => ([], r)
      let digits := body.takeWhile isDigit
      if digits.isEmpty then none else some (e :: sign ++ digits, body.dropWhile isDigit)
    else some ([], e :: rest)
  | [] => some ([], [])

/-- A number from the front of a text. -/
def number? (cs : List Char) : Option (Json × List Char) := do
  let (negative, body) := match cs with
    | '-' :: r => (true, r)
    | r => (false, r)
  let (whole, afterWhole) ← wholePart? body
  let (fraction, afterFraction) ← fraction? afterWhole
  let (exponent, rest) ← exponent? afterFraction
  let n := digitsValue whole
  if fraction.isEmpty ∧ exponent.isEmpty ∧ ¬ (negative ∧ n = 0) then
    return (int (if negative then -(n : Int) else n), rest)
  else
    let sign := if negative then ['-'] else []
    return (number (String.ofList (sign ++ whole ++ fraction ++ exponent)), rest)

mutual

/-- A value from the front of a text, in at most `steps` steps. -/
def value? : Nat → List Char → Option (Json × List Char)
  | 0, _ => none
  | steps + 1, cs =>
    match skipSpace cs with
    | 'n' :: 'u' :: 'l' :: 'l' :: rest => some (null, rest)
    | 't' :: 'r' :: 'u' :: 'e' :: rest => some (bool true, rest)
    | 'f' :: 'a' :: 'l' :: 's' :: 'e' :: rest => some (bool false, rest)
    | '"' :: rest => (literal? rest).map fun (text, r) => ((text.map string).getD unpaired, r)
    | '[' :: rest =>
      match skipSpace rest with
      | ']' :: r => some (array [], r)
      | r => (items? steps r).map fun (items, r) => (array items, r)
    | '\x7b' :: rest =>
      match skipSpace rest with
      | '\x7d' :: r => some (object [], r)
      | r => (fields? steps r).map fun (fields, r) => (ofFields fields, r)
    | rest => number? rest

/-- The items of an array up to its bracket. -/
def items? : Nat → List Char → Option (List Json × List Char)
  | 0, _ => none
  | steps + 1, cs => do
    let (item, rest) ← value? steps cs
    match skipSpace rest with
    | ',' :: r =>
      let (items, r) ← items? steps r
      return (item :: items, r)
    | ']' :: r => return ([item], r)
    | _ => none

/-- The fields of an object up to its brace, each with its name if that denotes a text. -/
def fields? : Nat → List Char → Option (List (Option String × Json) × List Char)
  | 0, _ => none
  | steps + 1, cs =>
    match skipSpace cs with
    | '"' :: afterQuote => do
      let (name, afterName) ← literal? afterQuote
      match skipSpace afterName with
      | ':' :: afterColon =>
        let (value, rest) ← value? steps afterColon
        match skipSpace rest with
        | ',' :: r =>
          let (fields, r) ← fields? steps r
          return ((name, value) :: fields, r)
        | '\x7d' :: r => return ([(name, value)], r)
        | _ => none
      | _ => none
    | _ => none

end

/-- The value that a text spells, white space around it allowed. -/
def parse? (s : String) : Option Json :=
  let cs := s.toList
  match value? (2 * cs.length + 2) cs with
  | some (value, rest) => if (skipSpace rest).isEmpty then some value else none
  | none => none

end SourceLint.Json
