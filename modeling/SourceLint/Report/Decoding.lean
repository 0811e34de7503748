import SourceLint.Json.Reader
import SourceLint.Report.Encoding
import SourceLint.Text.Decimal

/-! # Reports from JSON

A record is read from an object, whose fields may stand in any order and among
others that are ignored, or from an array of its fields in their order. A field
that occurs twice, or is missing, refuses the record; only the path of a
diagnostic may be left out.
-/

namespace SourceLint

namespace Json

/-- The value of the only field called `name`: an error if there are several. -/
def unique? (fields : List (String × Json)) (name : String) : Option (Option Json) :=
  match fields.filter (·.1 = name) with
  | [] => some none
  | [field] => some (some field.2)
  | _ => none

/-- The values of the fields of a record, in the order of `names`. -/
def record? (names : List String) : Json → Option (List (Option Json))
  | object fields => names.mapM (unique? fields)
  | array items => if items.length = names.length then some (items.map some) else none
  | _ => none

/-- A number that fits an unsigned 64-bit word. -/
def word? (j : Json) : Option Nat :=
  j.nat?.filter (· ≤ Text.maxWord)

end Json

/-- The severity of a name, or of an object whose only field has that name and no value. -/
def Severity.ofJson? : Json → Option Severity
  | .string name => parse? name
  | .object [(name, .null)] => parse? name
  | _ => none

/-- The position of a record. -/
def Position.ofJson? (j : Json) : Option Position := do
  match ← j.record? ["line", "column"] with
  | [some line, some column] => return ⟨← line.word?, ← column.word?⟩
  | _ => none

/-- The location of a record. -/
def Location.ofJson? (j : Json) : Option Location := do
  match ← j.record? ["file", "line", "column"] with
  | [some file, some line, some column] =>
    return ⟨⟨← file.string?⟩, ← line.word?, ← column.word?⟩
  | _ => none

/-- The violation of a record. -/
def Violation.ofJson? (j : Json) : Option Violation := do
  match ← j.record? ["code", "rule", "severity", "location", "message"] with
  | [some code, some rule, some severity, some location, some message] =>
    return ⟨← code.string?, ← rule.string?, ← Severity.ofJson? severity,
      ← Location.ofJson? location, ← message.string?⟩
  | _ => none

/-- A path, or none where there is null or nothing. -/
def Path.ofJson? : Option Json → Option (Option Path)
  | none => some none
  | some .null => some none
  | some (.string text) => some (some ⟨text⟩)
  | some _ => none

/-- The diagnostic of a record. -/
def Diagnostic.ofJson? (j : Json) : Option Diagnostic := do
  match ← j.record? ["path", "line", "column", "severity", "code", "rule", "message"] with
  | [path, some line, some column, some severity, some code, some rule, some message] =>
    return ⟨← Path.ofJson? path, ← line.word?, ← column.word?, ← Severity.ofJson? severity,
      ← code.string?, ← rule.string?, ← message.string?⟩
  | _ => none

/-- The report of a record. -/
def Report.ofJson? (j : Json) : Option Report := do
  match ← j.record? ["diagnostics", "files_checked", "fail_on"] with
  | [some diagnostics, some files, some severity] =>
    return ⟨← (← diagnostics.array?).mapM Diagnostic.ofJson?, ← files.word?,
      ← Severity.ofJson? severity⟩
  | _ => none

end SourceLint
