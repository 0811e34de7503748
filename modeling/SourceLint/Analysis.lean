import SourceLint.Config.Cache
import SourceLint.Discovery
import SourceLint.Report
import SourceLint.Rule
import SourceLint.Source.Grammar.File

/-! # Analysing a project

A run loads the configuration once, looks at every source file with every rule that is
switched on, and then lets those rules finish with the facts of all files. What is said
about one file does not depend on any other, so a run is settled by its files in the
order of their discovery: the first failure among them that counts fails the run, and
otherwise their findings are sorted by place.
-/

namespace SourceLint

/-- What is analysed, and how. -/
structure Analysis where
  /-- The working directory. -/
  directory : Path
  /-- The root of the project, seen from the working directory. -/
  root : Path
  rules : List Rule
  /-- Globs for files to leave out. -/
  excludes : List String := []
  document : Document := .absent
  /-- A file that does not parse fails the run. -/
  strict : Bool := false

namespace Analysis

/-- Why a run fails. -/
inductive Failure where
  /-- Someone has asked for the run to be given up. -/
  | cancelled
  /-- The root does not make a pattern. -/
  | badRoot (error : Glob.Error)
  /-- A source file cannot be read. -/
  | unreadable (path : Path) (error : ReadError)
  /-- A source file does not parse. -/
  | unparsable (path : Path)
  deriving Repr, DecidableEq

namespace Failure

/-- The failure in words. -/
def message : Failure → String
  | cancelled => "Analysis cancelled"
  | badRoot e => "Invalid glob pattern: " ++ e.render
  | unreadable _ e => "IO error: " ++ e.message
  | unparsable path => "Parse error in " ++ path.text

/-- What is behind the failure, in words. -/
def reason? : Failure → Option String
  | cancelled => some Cache.cancelledMessage
  | badRoot e => some e.render
  | unreadable _ e => some e.message
  | unparsable _ => none

/-- A file that cannot be read always fails a run, one that does not parse only a strict
run. -/
def fails (strict : Bool) : Failure → Bool
  | unparsable _ => strict
  | _ => true

end Failure

/-- The root of the project. -/
def fullRoot (a : Analysis) : Path :=
  a.directory.join a.root

/-- The excludes that count without the configuration. Where none are given, what a build
leaves behind is left out. -/
def ownExcludes (a : Analysis) : List String :=
  if a.excludes.isEmpty then ["**/target/**"] else a.excludes

/-- The source files of the project. -/
def sources (a : Analysis) (tree : FileTree) (config : Config) : Except Failure (List Path) :=
  (discover tree a.fullRoot (a.ownExcludes ++ config.excludePatterns)).mapError .badRoot

/-- The rules that the configuration leaves switched on. -/
def enabledRules (a : Analysis) (config : Config) : List Rule :=
  a.rules.filter fun r => config.isRuleEnabled r.name

/-- What each of the rules says about the file at a path. -/
def checkEach (tree : FileTree) (root : Path) (config : Config) (rules : List Rule)
    (path : Path) : Except Failure (List Checked) :=
  match tree.read path with
  | .error e => .error (.unreadable path e)
  | .ok content =>
    match Source.parse? content with
    | none => .error (.unparsable path)
    | some syntaxTree =>
      .ok (rules.map (Rule.checkAdjusted config (SourceFile.under root path content) syntaxTree))

/-- What the rules say about the file at a path. -/
def inspect (tree : FileTree) (root : Path) (config : Config) (rules : List Rule) (path : Path) :
    Except Failure Checked :=
  (checkEach tree root config rules path).map Checked.join

/-- What the first file that fails the run fails it with. -/
def failure? {A : Type} (strict : Bool) : List (Except Failure A) → Option Failure
  | [] => none
  | .ok _ :: results => failure? strict results
  | .error f :: results => if f.fails strict then some f else failure? strict results

/-- Some rule has asked for the run to be given up. -/
def isGivenUp (inspections : List (Except Failure Checked)) : Bool :=
  inspections.any fun
    | .ok checked => checked.cancels
    | .error _ => false

/-- The bank with the facts of all files. -/
def bankOf (checked : List Checked) : Bank :=
  checked.foldl (fun bank c => bank.add c.facts) {}

/-- The violations as findings, by their places: those of equal places in the order they
had. -/
def findings (violations : List Violation) : List Diagnostic :=
  (violations.map Diagnostic.ofViolation).mergeSort Diagnostic.le

/-- The report of a run in which so many files have been checked and these violations
found. -/
def reportOf (outcome : LoadOutcome) (files : Nat) (violations : List Violation) : Report where
  diagnostics := outcome.diagnostics ++ findings violations
  filesChecked := files
  failOn := outcome.config.failThreshold

/-- The report of a run whose files have been checked. What is said about files comes before
what rules say at the end. -/
def report (outcome : LoadOutcome) (loads : Nat) (rules : List Rule) (checked : List Checked) :
    Report :=
  reportOf outcome checked.length
    (checked.flatMap (·.violations) ++
      Rule.finishAll ⟨outcome.config, bankOf checked, loads⟩ rules)

/-- Load a document, its path seen from the working directory. -/
def load (a : Analysis) (tree : FileTree) (document : Document) : LoadOutcome :=
  document.load fun path => tree.read (a.directory.join path)

/-- The result of a run. It is cancelled when it has been so from the start, or when a rule
asks for that. -/
def run (a : Analysis) (tree : FileTree) (cancelled : Bool) : Except Failure Report :=
  match (Cache.mk a.document none 0).tryLoad (a.load tree) cancelled with
  | (none, _) => .error .cancelled
  | (some outcome, cache) => do
    let paths ← a.sources tree outcome.config
    let rules := a.enabledRules outcome.config
    let inspections := paths.map (inspect tree a.fullRoot outcome.config rules)
    if isGivenUp inspections then .error .cancelled
    else
      match failure? a.strict inspections with
      | some failure => .error failure
      | none => .ok (report outcome cache.loads rules (inspections.filterMap (·.toOption)))

/-- Runs that share what cancels them, one for each request: whether someone cancels before
it. Also says whether they are cancelled in the end. -/
def runEach (a : Analysis) (tree : FileTree) :
    Bool → List Bool → List (Except Failure Report) × Bool
  | cancelled, [] => ([], cancelled)
  | cancelled, request :: requests =>
    let result := a.run tree (cancelled || request)
    let after := cancelled || request || (match result with
      | .error .cancelled => true
      | _ => false)
    let (results, final) := a.runEach tree after requests
    (result :: results, final)

end Analysis

end SourceLint
