import SourceLint.CommandLine.Vocabulary
import SourceLint.Report.Encoding
import SourceLint.Rule.Registry

/-! # Printing

Reports for people, for programs and in one line a diagnostic, excerpts, and the list of rules.
For people severities are coloured, red for errors and yellow for warnings.
-/

namespace SourceLint

/-- The terminal code of a colour. -/
def colour (code : String) : String :=
  "\x1b[" ++ code ++ "m"

def plainColour : String := colour "0"

def Severity.colour : Severity → String
  | error => SourceLint.colour "31"
  | warning => SourceLint.colour "33"

/-- A diagnostic for people. -/
def Diagnostic.renderColoured (d : Diagnostic) : String :=
  d.code ++ " " ++ d.rule ++ " at " ++ d.renderPlace ++ "\n  " ++
    d.severity.colour ++ d.severity.render ++ plainColour ++ ": " ++ d.message ++ "\n\n"

/-- The headline of an excerpt, then its label and the byte that this is at. -/
def Excerpt.render (e : Excerpt) : String :=
  e.headline ++ "\n  at byte " ++ toString e.offset ++ ": " ++ e.label ++ "\n"

namespace Report

/-- The colour of a report: that of its worst diagnostic, or green. -/
def colour (r : Report) : String :=
  if 0 < r.errors then Severity.error.colour
  else if 0 < r.warnings then Severity.warning.colour
  else SourceLint.colour "32"

/-- A report for people. -/
def renderColoured (r : Report) : String :=
  String.join (r.diagnostics.map Diagnostic.renderColoured) ++
    r.colour ++ r.summary ++ plainColour ++ "\n"

/-- A line for each diagnostic. -/
def renderCompact (r : Report) : String :=
  String.join (r.diagnostics.map fun d => d.render ++ "\n")

def renderAs (r : Report) : CommandLine.Format → String
  | .text => r.renderColoured
  | .json => r.toJson.renderPretty ++ "\n"
  | .compact => r.renderCompact

end Report

/-- A text filled up with spaces to a width. -/
def padTo (width : Nat) (s : String) : String :=
  s ++ String.ofList (List.replicate (width - s.length) ' ')

def ruleRow (code name description : String) : String :=
  padTo 10 code ++ " " ++ padTo 20 name ++ " " ++ description ++ "\n"

def renderRules (rules : List Rule) : String :=
  "Available rules:\n\n" ++ ruleRow "Code" "Name" "Description" ++
    String.ofList (List.replicate 80 '-') ++ "\n" ++
    String.join (rules.map fun r => ruleRow r.code r.name r.description) ++
    "\nUse --rules to filter specific rules, e.g.:\n  podlint check --rules long-line\n" ++
    "  podlint check --rules PL001,PL002\n"

end SourceLint
