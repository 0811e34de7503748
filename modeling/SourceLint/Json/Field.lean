import SourceLint.Json.Value

/-! # Looking into JSON values

The questions a decoder asks of a value: the first field of a name, and the
value of one kind.
-/

namespace SourceLint.Json

/-- The first field called `name`. -/
def field? (name : String) : Json → Option Json
  | object fields => (fields.find? (·.1 = name)).map (·.2)
  | _ => none

def string? : Json → Option String
  | string s => some s
  | _ => none

def nat? : Json → Option Nat
  | int (.ofNat n) => some n
  | _ => none

def array? : Json → Option (List Json)
  | array items => some items
  | _ => none

/-- A value that may be absent. -/
def ofOption (encode : α → Json) : Option α → Json
  | some a => encode a
  | none => null

/-- A natural number. -/
def nat (n : Nat) : Json := int n

end SourceLint.Json
