import SourceLint.Config
import SourceLint.Glob.Pattern

/-! # Validation

A configuration that fits the schema can still say what makes no sense. Each
check looks at one setting and no check hides another. The issues found are in
the order of their positions, and in the order of the checks where positions are
equal.
-/

namespace SourceLint

/-- Something in a configuration that makes no sense. -/
structure Issue where
  position : Position
  message : String
  deriving Repr, DecidableEq, Inhabited

namespace Config

/-- An issue at a position, or at the start where there is none. -/
def issueAt (at_ : Option Position) (message : String) : Issue :=
  ⟨at_.getD .start, message⟩

/-- The number of workers must be in range. -/
def checkParallelism (s : AnalyzerSection) : Option Issue :=
  s.parallelism.bind fun n =>
    if (validParallelism? n).isSome then none
    else some (issueAt s.position
      ("parallelism must be between 1 and " ++ toString maxParallelism ++ ", found " ++ toString n))

/-- A glob must not be blank and must compile. -/
def checkExclude (field : String) (e : ExcludeEntry) : Option Issue :=
  if Text.isBlankText e.pattern then
    some (issueAt e.position (field ++ " must not be empty"))
  else
    match Glob.compile e.pattern with
    | .ok _ => none
    | .error fault =>
      some (issueAt e.position
        (field ++ " \"" ++ e.pattern ++ "\" is not a valid glob: " ++ fault.render))

/-- A bound must be a positive number. -/
def checkPositive (field : String) (raw : Option String) (at_ : Option Position) :
    Option Issue :=
  raw.bind fun literal =>
    if (Text.parsePositive literal).isSome then none
    else some (issueAt at_
      (field ++ " must be a positive integer, found \"" ++ literal ++ "\""))

/-- A tab must not be wider than a line. -/
def checkTabWithinLine (s : LongLineSection) : Option Issue := do
  let max ← s.maxLineLength.bind Text.parsePositive
  let tab ← s.tabWidth.bind Text.parsePositive
  if tab > max then
    some (issueAt s.position ("tabWidth (" ++ toString tab ++
      ") must not exceed maxLineLength (" ++ toString max ++ ")"))
  else none

def analyzerIssues (s : AnalyzerSection) : List Issue :=
  (checkParallelism s).toList ++ s.excludes.filterMap (checkExclude "pattern")

/-- The issues of the line rule's section. -/
def longLineIssues (s : LongLineSection) : List Issue :=
  (checkPositive "maxLineLength" s.maxLineLength s.position).toList ++
    (checkPositive "tabWidth" s.tabWidth s.position).toList ++ (checkTabWithinLine s).toList

/-- The issues of the function rule's section. -/
def unusedFunctionIssues (s : UnusedFunctionSection) : List Issue :=
  s.excludes.filterMap (checkExclude "name")

/-- All issues, in the order of the checks. -/
def issues (c : Config) : List Issue :=
  (c.analyzer.map analyzerIssues).getD [] ++ (c.longLine.map longLineIssues).getD [] ++
    (c.unusedFunction.map unusedFunctionIssues).getD []

/-- All issues, in the order of their positions. -/
def validate (c : Config) : List Issue :=
  c.issues.mergeSort fun a b => a.position.le b.position

end Config

end SourceLint
