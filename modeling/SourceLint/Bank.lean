import Std.Data.TreeSet.Basic
import SourceLint.Violation

/-! # The bank of facts

What the files of a run say about functions, put together: where they are
defined, where they are called and where they are referred to. Definitions and
references are sets; calls are kept in the order they came in. Names are compared
character by character and places as places are, so of two equal entries that are
spelled differently the first one stays.
-/

namespace SourceLint

/-- A name at a place. -/
structure Mention where
  name : String
  location : Location
  deriving Repr, DecidableEq, Inhabited

/-- Names first, then places. -/
instance : Ord Mention :=
  ⟨compareLex (compareOn Mention.name) (compareOn Mention.location)⟩

/-- What a file adds to the bank, each list in the order of the text. -/
structure Facts where
  symbols : List Mention := []
  invocations : List Mention := []
  references : List Mention := []
  deriving Repr, DecidableEq, Inhabited

/-- The facts of one part of a file, then those of another. -/
def Facts.append (a b : Facts) : Facts :=
  ⟨a.symbols ++ b.symbols, a.invocations ++ b.invocations, a.references ++ b.references⟩

instance : Append Facts := ⟨Facts.append⟩

/-- The facts of a run. -/
structure Bank where
  symbols : Std.TreeSet Mention compare := {}
  invocations : Array Mention := #[]
  references : Std.TreeSet Mention compare := {}
  deriving Inhabited

namespace Bank

def addSymbols (b : Bank) (batch : List Mention) : Bank :=
  { b with symbols := batch.foldl (·.insert ·) b.symbols }

/-- The bank with more calls, after those it has. -/
def addInvocations (b : Bank) (batch : List Mention) : Bank :=
  { b with invocations := b.invocations ++ batch }

def addReferences (b : Bank) (batch : List Mention) : Bank :=
  { b with references := batch.foldl (·.insert ·) b.references }

/-- The bank with the facts of a file. -/
def add (b : Bank) (facts : Facts) : Bank :=
  ((b.addSymbols facts.symbols).addInvocations facts.invocations).addReferences facts.references

end Bank

end SourceLint
