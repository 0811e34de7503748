import SourceLint.CommandLine.Arguments
import SourceLint.Path
import SourceLint.Text.Decimal

/-! # Invocations

What a command line asks for, once its words have been read and the environment has been
asked for what they leave out. An invocation that makes no sense is none at all.
-/

namespace SourceLint.CommandLine

/-- Where and with which variables the program has been started. -/
structure Environment where
  /-- The working directory. -/
  directory : Path
  settings : List (String × String) := []
  deriving Repr, Inhabited

namespace Environment

/-- The value of a variable. -/
def setting? (e : Environment) (name : String) : Option String :=
  e.settings.lookup name

/-- The configuration document that the environment asks for. -/
def config? (e : Environment) : Option String :=
  e.setting? "PODLINT_CONFIG"

/-- The directory with the configuration of the user. -/
def userDirectory? (e : Environment) : Option Path :=
  match e.setting? "PODLINT_CONFIG_DIR" with
  | some directory => some ⟨directory⟩
  | none => (e.setting? "HOME").map fun home => Path.child ⟨home⟩ ".podlint"

end Environment

/-- What a check may be told. -/
structure CheckOptions where
  format : Format := .text
  /-- The names or codes of the rules to run, with commas between them. -/
  rules : Option String := none
  excludes : List String := []
  /-- The number of workers. -/
  jobs : Option Nat := none
  deriving Repr, DecidableEq

/-- A verb with what belongs to it. -/
inductive Command where
  /-- Check a project. -/
  | check (path : Path) (options : CheckOptions)
  /-- Check the configuration of a project. -/
  | checkConfig (path : Path)
  | listRules
  /-- Write a configuration to start from, over an existing one if forced. -/
  | init (force : Bool)
  deriving Repr, DecidableEq

/-- All that a command line says. -/
structure Invocation where
  verbose : Bool
  /-- The configuration document that is asked for. -/
  config : Option Path
  command : Command
  deriving Repr, DecidableEq

/-- A path that is not empty. -/
def path? (text : String) : Option Path :=
  if text = "" then none else some ⟨text⟩

/-- The path among plain words, the working directory by default. -/
def project? : List String → Option Path
  | [] => some ⟨"."⟩
  | [word] => path? word
  | _ => none

/-- The result of `read` on the value of an option that may not have been given. -/
def option? (read : String → Option α) (s : Switch) (given : List Given) : Option (Option α) :=
  match (Given.values s given).head? with
  | none => some none
  | some value => (read value).map some

/-- What the options of a check say. -/
def CheckOptions.ofGiven? (given : List Given) : Option CheckOptions := do
  let format ← option? Format.named? .format given
  let rules ← option? some .rules given
  let jobs ← option? (Text.natural? ·.toList) .jobs given
  return ⟨format.getD .text, rules, Given.values .exclude given, jobs⟩

/-- The command of a verb and the arguments after it. -/
def Command.ofArguments? (verb : Verb) (a : Arguments) : Option Command := do
  guard (verb.takesPath || a.plain.isEmpty)
  match verb with
  | .check => return .check (← project? a.plain) (← CheckOptions.ofGiven? a.given)
  | .checkConfig => return .checkConfig (← project? a.plain)
  | .listRules => return .listRules
  | .init => return .init (Given.has .force a.given)

/-- The configuration document that is asked for: after the verb, before it, or else by the
environment. On either side of the verb the environment stands in for a missing one, and
neither side may name an empty path. -/
def config? (environment : Option String) (before after : List Given) : Option (Option Path) := do
  let outer := (Given.values .config before).head?
  let inner := (Given.values .config after).head?
  guard ((outer <|> environment) ≠ some "" ∧ (inner <|> environment) ≠ some "")
  return (inner <|> outer <|> environment).map Path.mk

/-- What the words of a command line ask for. -/
def Invocation.read? (e : Environment) (words : List String) : Option Invocation := do
  let (before, verb, words) ← readVerb words
  let a ← readArguments verb.switches words
  guard (Given.isSound before && Given.isSound a.given)
  let config ← CommandLine.config? e.config? before a.given
  let command ← Command.ofArguments? verb a
  return ⟨Given.has .verbose before || Given.has .verbose a.given, config, command⟩

end SourceLint.CommandLine
