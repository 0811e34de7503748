import SourceLint.Glob.Matching
import SourceLint.Rule
import SourceLint.Source.TestCode

/-! # The function rule

Each file tells which functions it defines, calls and refers to; when all have, the
functions whose name is used nowhere are reported. Test code defines nothing and uses
nothing. Names are compared without their paths, so functions of one name keep each
other alive.
-/

namespace SourceLint.UnusedFunction

open Source

variable {W : Name → Prop}

/-- What the parts of a tree are looked at for. -/
structure Scope where
  file : Path
  /-- Functions visible outside their module count as well. -/
  includesPublic : Bool
  /-- The implementation around is one of a trait. -/
  inTraitImplementation : Bool := false
  deriving Repr, Inhabited

namespace Scope

/-- A name of the file, at its place. -/
def mention (s : Scope) (name : Word W) : Mention :=
  ⟨name.text, ⟨s.file, name.position.line, name.position.column⟩⟩

/-- The facts of a call. -/
def invocation (s : Scope) (name : Word W) : Facts :=
  { invocations := [s.mention name] }

/-- The facts of any other use. -/
def reference (s : Scope) (name : Word W) : Facts :=
  { references := [s.mention name] }

/-- The facts of a definition. The entry point counts as used. -/
def definition (s : Scope) (name : Word W) (visible : Bool) : Facts :=
  if name.text = "main" ∨ (visible ∧ ¬ s.includesPublic) then {}
  else { symbols := [s.mention name] }

/-- The facts that an item adds to those of its parts. -/
def ofKind (s : Scope) : ItemKind W → Facts
  | .function name visible => s.definition name visible
  | .method name visible => if s.inTraitImplementation then {} else s.definition name visible
  | _ => {}

/-- The scope of the parts of an item. -/
def inside (s : Scope) : ItemKind W → Scope
  | .implementation ofTrait => { s with inTraitImplementation := ofTrait }
  | _ => s

end Scope

/-- An item of that kind is left out where it is test code. -/
def canBeTest : ItemKind W → Bool
  | .other => false
  | _ => true

mutual

def facts (s : Scope) : Node W → Facts
  | .path name parts => s.reference name ++ factsOfAll s parts
  | .call _ (.path name _) arguments => s.invocation name ++ factsOfAll s arguments
  | .call attributes callee arguments =>
    factsOfAll s attributes ++ facts s callee ++ factsOfAll s arguments
  | .methodCall name parts => s.invocation name ++ factsOfAll s parts
  | .imported name => s.reference name
  | .operation first parts => facts s first ++ factsOfAll s parts
  | .item kind attributes parts =>
    if canBeTest kind && isTestCode attributes then {}
    else s.ofKind kind ++ factsOfAll (s.inside kind) parts
  | .group parts => factsOfAll s parts
  | .unread => {}

/-- The facts of nodes, one after the other. -/
def factsOfAll (s : Scope) : List (Node W) → Facts
  | [] => {}
  | node :: nodes => facts s node ++ factsOfAll s nodes

end

/-- The facts of a file. Files of tests have none. -/
def factsOfFile (config : Config) (file : SourceFile) (tree : Tree W) : Facts :=
  if file.isTest then {}
  else factsOfAll ⟨file.path, config.includesPublic, false⟩ (tree.values ++ tree.items)

/-- The name is called or referred to. -/
def isUsed (bank : Bank) (name : String) : Bool :=
  bank.invocations.any (·.name = name) || bank.references.toList.any (·.name = name)

/-- The violation of a function that nothing uses. -/
def violation (symbol : Mention) : Violation :=
  ⟨"PL002", unusedFunctionRule, .warning, symbol.location,
    "function `" ++ symbol.name ++ "` is never used"⟩

/-- Those of the functions that nothing uses and no exclude matches, in the order of their
places. -/
def unusedAmong (config : Config) (bank : Bank) (symbols : List Mention) : List Mention :=
  let excludes := Glob.compileAll config.functionExcludes
  let left := symbols.filter fun symbol =>
    !isUsed bank symbol.name && !excludes.any (Glob.matches · symbol.name)
  left.mergeSort fun a b => a.location.le b.location

/-- The functions of the bank that nothing uses and no exclude matches. -/
def unused (config : Config) (bank : Bank) : List Mention :=
  unusedAmong config bank bank.symbols.toList

/-- The function rule. -/
def rule : Rule where
  name := unusedFunctionRule
  code := "PL002"
  description := "Reports functions that are never called or referenced"
  checkNeedsConfig file := !file.isTest
  check config file tree := { facts := factsOfFile config file tree }
  finishNeedsConfig := true
  finish run := (unused run.config run.bank).map violation

end SourceLint.UnusedFunction
