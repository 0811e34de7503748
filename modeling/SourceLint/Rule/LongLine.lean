import SourceLint.Rule
import SourceLint.Text.Lines

/-! # The line rule

A line is too long when its columns, each tab counting as several, exceed a bound. The
violation stands in the first column past the bound.
-/

namespace SourceLint.LongLine

/-- The violation of a line that is `width` columns wide. -/
def violation (file : Path) (line width max : Nat) : Violation :=
  ⟨"PL001", longLineRule, .warning, ⟨file, line, max + 1⟩,
    "line is " ++ toString width ++ " columns wide, maximum is " ++ toString max⟩

/-- The violations among the lines from number `line` on. -/
def violationsFrom (file : Path) (max tabWidth line : Nat) : List (List Char) → List Violation
  | [] => []
  | cs :: rest =>
    let width := Text.width tabWidth cs
    let others := violationsFrom file max tabWidth (line + 1) rest
    if max < width then violation file line width max :: others else others

def violations (config : Config) (file : SourceFile) : List Violation :=
  violationsFrom file.path config.maxLineLength config.tabWidth 1 (Text.lines file.content.toList)

/-- The line rule. -/
def rule : Rule where
  name := longLineRule
  code := "PL001"
  description := "Limits line width, counting tabs as tabWidth columns"
  check config file _ := { violations := violations config file }

end SourceLint.LongLine
