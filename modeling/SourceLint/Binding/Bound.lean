import SourceLint.Position
import SourceLint.Severity

/-! # Bound elements

What is left of an element once it has been checked against its schema: the
values of its attributes, each of the declared kind, and its bound children.
-/

namespace SourceLint

/-- The value of an attribute, of its declared kind. -/
inductive FieldValue where
  | text (s : String)
  | integer (n : Int)
  | boolean (b : Bool)
  | severity (s : Severity)
  deriving Repr, DecidableEq, BEq

/-- An element that fits its schema. -/
structure Bound where
  name : String
  /-- One value for each attribute name. -/
  values : List (String × FieldValue)
  children : List Bound
  position : Option Position
  deriving Repr, Inhabited

namespace Bound

/-- Give an attribute a value, in place of any earlier one. -/
def put (values : List (String × FieldValue)) (name : String) (value : FieldValue) :
    List (String × FieldValue) :=
  values.filter (·.1 ≠ name) ++ [(name, value)]

def value? (b : Bound) (name : String) : Option FieldValue :=
  (b.values.find? (·.1 = name)).map (·.2)

def text? (b : Bound) (name : String) : Option String :=
  match b.value? name with
  | some (.text s) => some s
  | _ => none

def integer? (b : Bound) (name : String) : Option Int :=
  match b.value? name with
  | some (.integer n) => some n
  | _ => none

def boolean? (b : Bound) (name : String) : Option Bool :=
  match b.value? name with
  | some (.boolean v) => some v
  | _ => none

def severity? (b : Bound) (name : String) : Option Severity :=
  match b.value? name with
  | some (.severity s) => some s
  | _ => none

def childrenNamed (b : Bound) (name : String) : List Bound :=
  b.children.filter (·.name = name)

def child? (b : Bound) (name : String) : Option Bound :=
  b.children.find? (·.name = name)

end Bound

end SourceLint
