import SourceLint.Bank
import SourceLint.Config
import SourceLint.Source.Node
import SourceLint.SourceFile

/-! # Rules

A rule looks at each file by itself and finishes when all have been looked at. What it
finds in a file beyond violations goes to the bank, from which it may report at the
end.
-/

namespace SourceLint

/-- What a rule says about one file. -/
structure Checked where
  violations : List Violation := []
  facts : Facts := {}
  /-- The rule asks for the run to be given up. -/
  cancels : Bool := false
  deriving Repr, Inhabited

/-- What is said about a file first, then what else is said about it. -/
def Checked.append (a b : Checked) : Checked :=
  ⟨a.violations ++ b.violations, a.facts ++ b.facts, a.cancels || b.cancels⟩

instance : Append Checked := ⟨Checked.append⟩

/-- What several rules say about a file, one after the other. -/
def Checked.join (checked : List Checked) : Checked :=
  checked.foldr (· ++ ·) {}

/-- What a rule can look at when all files have been checked. -/
structure Run where
  config : Config := {}
  bank : Bank := {}
  /-- How often the configuration has been loaded. -/
  loads : Nat := 0
  deriving Inhabited

structure Rule where
  name : String
  code : String
  description : String := ""
  severity : Severity := .warning
  /-- Looking at a file takes the configuration. -/
  checkNeedsConfig : SourceFile → Bool := fun _ => true
  check {W : Source.Name → Prop} : Config → SourceFile → Source.Tree W → Checked
  /-- Finishing takes the configuration. -/
  finishNeedsConfig : Bool := false
  finish : Run → List Violation := fun _ => []

namespace Rule

/-- The rule goes by that name or code. -/
def goesBy (r : Rule) (key : String) : Bool :=
  r.name = key || r.code = key

/-- The violation with the severity that the configuration gives its rule. -/
def adjust (config : Config) (r : Rule) (v : Violation) : Violation :=
  { v with severity := (config.ruleSeverity? r.name).getD v.severity }

/-- What the rule says about a file, its violations with the severity that the configuration
gives them. -/
def checkAdjusted {W : Source.Name → Prop} (config : Config) (file : SourceFile)
    (tree : Source.Tree W) (r : Rule) : Checked :=
  let checked := r.check config file tree
  { checked with violations := checked.violations.map (adjust config r) }

/-- What the rules say at the end of a run, one after the other. -/
def finishAll (run : Run) (rules : List Rule) : List Violation :=
  rules.flatMap fun r => (r.finish run).map (adjust run.config r)

end Rule

end SourceLint
