import SourceLint.Schema

/-! # The schemas of the configuration document

The root element `config` has one optional section for the analyzer and one for
each rule. The bounds of the line rule are declared as text, so a literal that is
no number is found by validation and does not stop the load.
-/

namespace SourceLint.Schema

/-- An attribute that may be missing. -/
def optionalField (name : String) (kind : FieldKind) : Field := ⟨name, kind, false⟩

/-- An attribute that must be there. -/
def requiredField (name : String) (kind : FieldKind) : Field := ⟨name, kind, true⟩

/-- What every section of a rule may say. -/
def ruleFields : List Field :=
  [optionalField "enabled" .boolean, optionalField "severity" .severity]

/-- A path glob that takes files out of the analysis. -/
def analyzerExclude : Schema :=
  ⟨"Exclude", [requiredField "pattern" .text], [], [], true⟩

/-- The section of the analyzer. -/
def analyzer : Schema :=
  ⟨"Analyzer", [optionalField "parallelism" .integer], [analyzerExclude], [], false⟩

/-- The section of the line rule. -/
def longLine : Schema :=
  ⟨"LongLine",
    ruleFields ++ [optionalField "maxLineLength" .text, optionalField "tabWidth" .text],
    [], [], false⟩

/-- A name glob that takes functions out of the report. -/
def unusedFunctionExclude : Schema :=
  ⟨"Exclude", [requiredField "name" .text], [], [], true⟩

/-- The section of the function rule. -/
def unusedFunction : Schema :=
  ⟨"UnusedFunction", ruleFields ++ [optionalField "includePublic" .boolean],
    [unusedFunctionExclude], [], false⟩

/-- The root element. -/
def config : Schema :=
  ⟨"config", [optionalField "failOn" .severity], [analyzer, longLine, unusedFunction], [], false⟩

end SourceLint.Schema
