import SourceLint.Analysis
import SourceLint.CommandLine.Invocation
import SourceLint.CommandLine.Printing
import SourceLint.CommandLine.Template

/-! # Running an invocation

A command reads the file tree as it is and may ask for a file to be written. A run that
finds something bad enough exits with one, and so does one that fails; a command line
that makes no sense exits with two.
-/

namespace SourceLint.CommandLine

/-- A piece of the error output. -/
inductive Remark where
  /-- A line of its own. -/
  | line (text : String)
  /-- A source text that is drawn with its label. -/
  | excerpt (e : Excerpt)
  deriving Repr, DecidableEq

namespace Remark

/-- The plain line, where it is one. -/
def line? : Remark → Option String
  | line text => some text
  | excerpt _ => none

/-- The piece in words, `draw` giving those of an excerpt. -/
def render (draw : Excerpt → String) : Remark → String
  | line text => text
  | excerpt e => draw e

end Remark

/-- What running a command line comes to. -/
structure Outcome where
  exit : Nat := 0
  output : String := ""
  /-- The error output, piece by piece. -/
  remarks : List Remark := []
  /-- A file to write, with its text. -/
  written : Option (Path × String) := none
  deriving Repr, DecidableEq, Inhabited

namespace Outcome

def treeAfter (o : Outcome) (tree : FileTree) : FileTree :=
  match o.written with
  | some (path, content) => tree.put path (.ofText content)
  | none => tree

/-- The plain lines of the error output. -/
def errors (o : Outcome) : List String :=
  o.remarks.filterMap Remark.line?

end Outcome

/-- The names of the configuration document of a project, the first one going first. -/
def projectDocuments : List String := ["podlint.xml", ".podlint.xml"]

/-- The name of the configuration document of a user. -/
def userDocument : String := "config.xml"

/-- The documents that may configure a project: its own ones, then that of the user. -/
def candidates (e : Environment) (project : Path) : List Path :=
  projectDocuments.map project.child ++ (e.userDirectory?.map (·.child userDocument)).toList

/-- The document that configures a project: the one that is asked for, whether it is there or
not, or else the first candidate that is a file. -/
def locate (e : Environment) (tree : FileTree) (project : Path) (asked : Option Path) : Document :=
  match asked <|> (candidates e project).find? fun p => tree.isFile (e.directory.join p) with
  | some path => .file path
  | none => .absent

/-- The lines that report a failure and what is behind it. -/
def failureRemarks (headline : String) (causes : List String) : List Remark :=
  let lines := match causes with
    | [] => []
    | [cause] => ["", "Caused by:", "    " ++ cause]
    | _ => "" :: "Caused by:" :: causes.mapIdx fun i cause =>
        "    " ++ toString i ++ ": " ++ cause
  (("Error: " ++ headline) :: lines).map .line

def analysis (e : Environment) (project : Path) (options : CheckOptions) (document : Document) :
    Analysis where
  directory := e.directory
  root := project
  rules := (options.rules.map Rule.chosenBy).getD Rule.all
  excludes := options.excludes
  document := document

def check (e : Environment) (tree : FileTree) (project : Path) (options : CheckOptions)
    (document : Document) : Outcome :=
  match (analysis e project options document).run tree false with
  | .error f =>
    { exit := 1, remarks := failureRemarks "Analysis failed" (f.message :: f.reason?.toList) }
  | .ok report =>
    { exit := if report.isFailure then 1 else 0, output := report.renderAs options.format }

/-- What is said about a problem of the document at `path`: where it is, and what it is, with a
label on the text. -/
def problemRemarks (path : Path) (source : String) (d : Diagnostic) : List Remark :=
  [.line (path.text ++ ":" ++ toString (d.line + 1) ++ ":" ++ toString (d.column + 1)),
    .excerpt (d.excerpt source)]

/-- What is said about a document that has problems. -/
def problemsRemarks (path : Path) (source : String) (diagnostics : List Diagnostic) :
    List Remark :=
  diagnostics.flatMap (problemRemarks path source) ++
    [.line ("Found " ++ toString diagnostics.length ++ " configuration problem(s)")]

/-- The text of a file, read once more to be shown: none where it cannot be read. -/
def shownText (e : Environment) (tree : FileTree) (path : Path) : String :=
  (tree.read (e.directory.join path)).toOption.getD ""

/-- Check the configuration of a project. -/
def checkConfig (e : Environment) (tree : FileTree) (document : Document) : Outcome :=
  match document.path? with
  | none => { output := "No configuration file found; defaults apply.\n" }
  | some path =>
    let outcome := document.load fun p => tree.read (e.directory.join p)
    match outcome.diagnostics with
    | [] => { output := path.text ++ ": configuration is valid\n" }
    | diagnostics =>
      { exit := 1, remarks := problemsRemarks path (shownText e tree path) diagnostics }

/-- The name under which a configuration to start from is written. -/
def startDocument : String := "podlint.xml"

/-- The path under which a configuration to start from is written. -/
def startPath (e : Environment) : Path :=
  e.directory.child startDocument

/-- Write a configuration to start from. -/
def writeTemplate (e : Environment) (tree : FileTree) (force : Bool) : Outcome :=
  let path := startPath e
  if tree.exists path ∧ ¬ force then
    { exit := 1
      remarks := failureRemarks ("Configuration file already exists at " ++ startDocument ++
        ". Use --force to overwrite.") [] }
  else if tree.isDirectory path then
    { exit := 1
      remarks := failureRemarks ("Failed to write " ++ startDocument) [ReadError.isDirectory.message] }
  else
    { output := "Created " ++ startDocument ++ "\n\nNext steps:\n  1. Edit " ++ startDocument ++
        " to configure rules\n  2. Run: podlint check-config\n  3. Run: podlint check\n"
      written := some (path, template) }

def Invocation.run (e : Environment) (tree : FileTree) (i : Invocation) : Outcome :=
  match i.command with
  | .check project options => check e tree project options (locate e tree project i.config)
  | .checkConfig project => checkConfig e tree (locate e tree project i.config)
  | .listRules => { output := renderRules Rule.all }
  | .init force => writeTemplate e tree force

/-- What a command line that makes no sense is answered. -/
def usage : Remark :=
  .line ("Usage: podlint [OPTIONS] <" ++ "|".intercalate (Verb.all.map Verb.name) ++ ">")

/-- Run a command line. -/
def run (e : Environment) (tree : FileTree) (words : List String) : Outcome :=
  match Invocation.read? e words with
  | some i => i.run e tree
  | none => { exit := 2, remarks := [usage] }

end SourceLint.CommandLine
