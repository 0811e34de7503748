import SourceLint.Json.Field
import SourceLint.Report

/-! # Reports as JSON

Each record is an object of its fields in the order of their declaration, under
names in snake case.
-/

namespace SourceLint

/-- A severity by its name. -/
def Severity.toJson (s : Severity) : Json := .string s.render

/-- A position as a record. -/
def Position.toJson (p : Position) : Json :=
  .object [("line", .nat p.line), ("column", .nat p.column)]

/-- A location as a record. -/
def Location.toJson (l : Location) : Json :=
  .object [("file", .string l.file.text), ("line", .nat l.line), ("column", .nat l.column)]

/-- A violation as a record. -/
def Violation.toJson (v : Violation) : Json :=
  .object [("code", .string v.code), ("rule", .string v.rule), ("severity", v.severity.toJson),
    ("location", v.location.toJson), ("message", .string v.message)]

/-- A diagnostic as a record, its path null when it has none. -/
def Diagnostic.toJson (d : Diagnostic) : Json :=
  .object [("path", Json.ofOption (fun p : Path => .string p.text) d.path),
    ("line", .nat d.line), ("column", .nat d.column), ("severity", d.severity.toJson),
    ("code", .string d.code), ("rule", .string d.rule), ("message", .string d.message)]

/-- A report as a record. -/
def Report.toJson (r : Report) : Json :=
  .object [("diagnostics", .array (r.diagnostics.map Diagnostic.toJson)),
    ("files_checked", .nat r.filesChecked), ("fail_on", r.failOn.toJson)]

end SourceLint
