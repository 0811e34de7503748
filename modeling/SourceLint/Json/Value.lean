/-! # JSON values

A value keeps the order of its fields. Numbers are exact: a literal with a
fraction or an exponent, and `-0`, stay as they were written. A string literal
may be well formed and still denote no text, because an escape names half of a
surrogate pair; such a literal is kept apart, and so is an object with one for a
name.
-/

namespace SourceLint

/-- A JSON value. -/
inductive Json where
  | null
  | bool (b : Bool)
  /-- A number without fraction and exponent. -/
  | int (n : Int)
  /-- Any other number, as it was written. -/
  | number (literal : String)
  | string (s : String)
  /-- A string literal with half a surrogate pair in it. -/
  | unpaired
  | array (items : List Json)
  | object (fields : List (String × Json))
  /-- An object with half a surrogate pair in one of its names. -/
  | misnamed
  deriving Repr, Inhabited, BEq

namespace Json

/-- The hexadecimal digit of a number below sixteen. -/
def hexDigit (n : Nat) : Char :=
  if n < 10 then Char.ofNat (48 + n) else Char.ofNat (87 + n)

/-- How a character stands in a string literal. -/
def escape (c : Char) : List Char :=
  if c = '"' then ['\\', '"']
  else if c = '\\' then ['\\', '\\']
  else if c = '\n' then ['\\', 'n']
  else if c = '\r' then ['\\', 'r']
  else if c = '\t' then ['\\', 't']
  else if c = '\x08' then ['\\', 'b']
  else if c = '\x0c' then ['\\', 'f']
  else if c.toNat < 0x20 then
    ['\\', 'u', '0', '0', hexDigit (c.toNat / 16), hexDigit (c.toNat % 16)]
  else [c]

/-- A text as a string literal. -/
def quote (s : String) : String :=
  "\"" ++ String.ofList (s.toList.flatMap escape) ++ "\""

/-- Texts with a separator between each two of them. -/
def separate (separator : String) (texts : List String) : String :=
  separator.intercalate texts

mutual

/-- A value without any white space. -/
def render : Json → String
  | null => "null"
  | bool b => if b then "true" else "false"
  | int n => toString n
  | number literal => literal
  | string s => quote s
  | unpaired => "\"\\ud800\""
  | array items => "[" ++ separate "," (renderItems items) ++ "]"
  | object fields => "\x7b" ++ separate "," (renderFields fields) ++ "\x7d"
  | misnamed => "\x7b\"\\ud800\":null\x7d"

/-- The texts of the items of an array. -/
def renderItems : List Json → List String
  | [] => []
  | item :: items => render item :: renderItems items

/-- The texts of the fields of an object. -/
def renderFields : List (String × Json) → List String
  | [] => []
  | (name, value) :: fields => (quote name ++ ":" ++ render value) :: renderFields fields

end

/-- A line break and the indentation of depth `depth`. -/
def lineBreak (depth : Nat) : String :=
  "\n" ++ String.ofList (List.replicate (2 * depth) ' ')

mutual

/-- A value with one item or field a line, each level two spaces deeper. -/
def renderIndented (depth : Nat) : Json → String
  | array (item :: items) =>
    "[" ++ lineBreak (depth + 1) ++
      separate ("," ++ lineBreak (depth + 1)) (indentItems (depth + 1) (item :: items)) ++
      lineBreak depth ++ "]"
  | object (field :: fields) =>
    "\x7b" ++ lineBreak (depth + 1) ++
      separate ("," ++ lineBreak (depth + 1)) (indentFields (depth + 1) (field :: fields)) ++
      lineBreak depth ++ "\x7d"
  | null => render null
  | bool b => render (bool b)
  | int n => render (int n)
  | number literal => render (number literal)
  | string s => render (string s)
  | unpaired => render unpaired
  | misnamed => render misnamed
  | array [] => render (array [])
  | object [] => render (object [])

/-- The indented texts of the items of an array. -/
def indentItems (depth : Nat) : List Json → List String
  | [] => []
  | item :: items => renderIndented depth item :: indentItems depth items

/-- The indented texts of the fields of an object. -/
def indentFields (depth : Nat) : List (String × Json) → List String
  | [] => []
  | (name, value) :: fields =>
    (quote name ++ ": " ++ renderIndented depth value) :: indentFields depth fields

end

/-- A value as people read it. -/
def renderPretty (value : Json) : String :=
  renderIndented 0 value

end Json

end SourceLint
