import SourceLint.Config.Document
import SourceLint.Text.Lines
import SourceLint.Violation

/-! # Diagnostics

Load failures, validation issues and violations are reported in one shape. What
they say about places is counted from one; a diagnostic counts from zero, and a
printed diagnostic from one again. A document without a path has no place to
point at.
-/

namespace SourceLint

/-- Where in its document a diagnostic points. -/
inductive Place where
  /-- At a line and a column, both counted from zero. -/
  | within (line column : Nat)
  /-- Nowhere: the document has no path. -/
  | nowhere
  deriving Repr, DecidableEq, BEq

/-- The place in the document at `path` that a position names. Without a position
it is the start of the document. -/
def Place.ofPosition (path : Option Path) (position : Option Position) : Place :=
  match path, position with
  | none, _ => nowhere
  | some _, none => within 0 0
  | some _, some p => within (p.line - 1) (p.column - 1)

/-- A source text with a label at one of its bytes, under a headline. -/
structure Excerpt where
  headline : String
  source : String
  /-- The byte that the label is at. -/
  offset : Nat
  label : String
  deriving Repr, DecidableEq, Inhabited

/-- Something to report. -/
structure Diagnostic where
  path : Option Path
  /-- Counted from zero. -/
  line : Nat
  /-- Counted from zero. -/
  column : Nat
  severity : Severity
  code : String
  rule : String
  message : String
  deriving Repr, DecidableEq, Inhabited

/-- The code of diagnostics about the configuration. -/
def configCode : String := "PL000"

/-- The rule name of diagnostics about the configuration. -/
def configRule : String := "config"

namespace Diagnostic

/-- An error in the configuration document at `path`. -/
def ofConfig (path : Option Path) (position : Option Position) (message : String) : Diagnostic :=
  match Place.ofPosition path position with
  | .within line column => ⟨path, line, column, .error, configCode, configRule, message⟩
  | .nowhere => ⟨none, 0, 0, .error, configCode, configRule, message⟩

def ofViolation (v : Violation) : Diagnostic :=
  ⟨some v.location.file, v.location.line - 1, v.location.column - 1, v.severity, v.code, v.rule,
    v.message⟩

/-- `a` stands where `b` does or before it: paths by their components, then lines, then
columns. -/
def le (a b : Diagnostic) : Bool :=
  (compareLex (compareOn path) (compareLex (compareOn line) (compareOn column)) a b).isLE

/-- Where a printed diagnostic says it is. -/
def renderPlace (d : Diagnostic) : String :=
  match d.path with
  | some path => path.text ++ ":" ++ toString (d.line + 1) ++ ":" ++ toString (d.column + 1)
  | none => "<no location>"

/-- A diagnostic on one line of a report. -/
def render (d : Diagnostic) : String :=
  d.renderPlace ++ ": " ++ d.severity.render ++ " [" ++ d.code ++ "] " ++ d.message

/-- What an annotated source says about a diagnostic. -/
def headline (d : Diagnostic) : String :=
  "[" ++ d.code ++ "] " ++ d.message

/-- The byte of a source text that a diagnostic points at. -/
def offsetIn (d : Diagnostic) (source : String) : Nat :=
  Text.offsetOf source.toList d.line d.column

/-- A source text, labelled with the rule where the diagnostic points. -/
def excerpt (d : Diagnostic) (source : String) : Excerpt :=
  ⟨d.headline, source, d.offsetIn source, d.rule⟩

end Diagnostic

/-- What a load has to report: its failure, or else each of its issues. -/
def LoadOutcome.diagnostics (o : LoadOutcome) : List Diagnostic :=
  match o.failure with
  | some failure => [.ofConfig o.path failure.position? failure.message]
  | none => o.issues.map fun issue => .ofConfig o.path (some issue.position) issue.message

end SourceLint
