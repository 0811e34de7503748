import SourceLint.Source.Node
import SourceLint.Text.Search

/-! # Test code

An item is test code when an attribute marks it as a test, or makes it depend on being
compiled for tests. The latter is told by the spelling of the condition alone.
-/

namespace SourceLint.Source

/-- The last names of attributes that mark tests. -/
def testNames : List String := ["test", "rstest"]

/-- How a condition on being compiled for tests is spelled within others. -/
def testConditions : List String := ["(test)", "(test,", ",test)"]

namespace Attribute

def marksTest (a : Attribute) : Bool :=
  match a.path.getLast? with
  | some name => name ∈ testNames
  | none => false

def isCondition (a : Attribute) : Bool :=
  !a.absolute && a.path = ["cfg"]

/-- The attribute is a condition on being compiled for tests. -/
def conditionsOnTest (a : Attribute) : Bool :=
  a.isCondition && testConditions.any fun part => Text.holds part.toList a.text.toList

end Attribute

/-- What has these attributes is test code. -/
def isTestCode (attributes : List Attribute) : Bool :=
  attributes.any (·.marksTest) || attributes.any (·.conditionsOnTest)

end SourceLint.Source
