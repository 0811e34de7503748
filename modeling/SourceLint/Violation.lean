import SourceLint.Path
import SourceLint.Severity

/-! # Violations

What a rule finds, at a place in a source file. Places are compared by file,
then line, then column, and counted from one.
-/

namespace SourceLint

/-- A place in a source file. -/
structure Location where
  file : Path
  line : Nat
  column : Nat
  deriving Repr, DecidableEq, Inhabited

namespace Location

/-- Files by their components, then lines, then columns. -/
instance : Ord Location :=
  ⟨compareLex (compareOn file) (compareLex (compareOn line) (compareOn column))⟩

/-- `a` stands at `b` or before it. -/
def le (a b : Location) : Bool :=
  (compare a b).isLE

/-- Places in order, those that are equal in the order they had. -/
def sort (locations : List Location) : List Location :=
  locations.mergeSort le

end Location

/-- Something a rule has found. -/
structure Violation where
  code : String
  rule : String
  severity : Severity
  location : Location
  message : String
  deriving Repr, DecidableEq, Inhabited

/-- A violation on one line of a report. -/
def Violation.render (v : Violation) : String :=
  v.location.file.text ++ ":" ++ toString v.location.line ++ ":" ++ toString v.location.column ++
    ": " ++ v.severity.render ++ " [" ++ v.code ++ "] " ++ v.message

end SourceLint
