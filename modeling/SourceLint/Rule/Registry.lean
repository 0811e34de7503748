import SourceLint.Rule.LongLine
import SourceLint.Rule.UnusedFunction
import SourceLint.Text.Blank
import SourceLint.Text.Cut

/-! # The rules there are

Rules are chosen by name or code. Of a list of choices each one adds the rule it names,
unless an earlier one did, and choices that name no rule add nothing.
-/

namespace SourceLint.Rule

/-- All rules, in the order in which they run. -/
def all : List Rule := [LongLine.rule, UnusedFunction.rule]

/-- The rule that goes by a name or code. -/
def named? (key : String) : Option Rule :=
  all.find? (·.goesBy key)

/-- The first of the rules that goes by a name or code, and the other rules. -/
def take? (key : String) : List Rule → Option (Rule × List Rule)
  | [] => none
  | r :: rules =>
    if r.goesBy key then some (r, rules)
    else (take? key rules).map fun (taken, others) => (taken, r :: others)

/-- The rules among `available` that the keys choose, in the order of the keys. -/
def choose : List String → List Rule → List Rule
  | [], _ => []
  | key :: keys, available =>
    match take? key available with
    | some (r, others) => r :: choose keys others
    | none => choose keys available

/-- The rules that a text with commas between names or codes chooses. -/
def chosenBy (choice : String) : List Rule :=
  choose ((Text.cut ',' choice).map Text.trim) all

end SourceLint.Rule
