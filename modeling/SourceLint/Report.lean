import SourceLint.Diagnostic

/-! # Reports

The result of a run: what there is to say, how many files were looked at, and the
severity from which on the run fails.
-/

namespace SourceLint

/-- The result of a run. -/
structure Report where
  /-- Those about the configuration first, then the findings of the rules. -/
  diagnostics : List Diagnostic := []
  filesChecked : Nat := 0
  failOn : Severity := .error
  deriving Repr, DecidableEq, Inhabited

namespace Report

/-- Some diagnostic is at least that bad. -/
def hasAt (r : Report) (severity : Severity) : Bool :=
  r.diagnostics.any (·.severity.reaches severity)

/-- Some diagnostic is an error. -/
def hasErrors (r : Report) : Bool := r.hasAt .error

/-- Some diagnostic is bad enough to fail the run. -/
def isFailure (r : Report) : Bool := r.hasAt r.failOn

/-- The number of errors. -/
def errors (r : Report) : Nat :=
  r.diagnostics.countP (·.severity = .error)

/-- The number of warnings. -/
def warnings (r : Report) : Nat :=
  r.diagnostics.length - r.errors

/-- The report with one more diagnostic. -/
def push (r : Report) (d : Diagnostic) : Report :=
  { r with diagnostics := r.diagnostics ++ [d] }

/-- The diagnostics and files of another report as well; the threshold stays. -/
def extend (r other : Report) : Report :=
  { r with
    diagnostics := r.diagnostics ++ other.diagnostics
    filesChecked := r.filesChecked + other.filesChecked }

/-- The last line of a printed report. -/
def summary (r : Report) : String :=
  "Found " ++ toString r.errors ++ " error(s), " ++ toString r.warnings ++ " warning(s) in " ++
    toString r.filesChecked ++ " file(s)"

/-- A line for each diagnostic, then the summary. -/
def render (r : Report) : String :=
  String.join (r.diagnostics.map fun d => d.render ++ "\n") ++ r.summary

end Report

end SourceLint
