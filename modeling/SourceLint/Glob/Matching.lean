import SourceLint.Glob.Pattern

/-! # Matching a text

Tokens are matched against a whole text. Each token says which tails of the text
may be left after it, and the text matches when some choice leaves nothing.
-/

namespace SourceLint.Glob

/-- All tails of a text, itself included. -/
def tails : List Char → List (List Char)
  | [] => [[]]
  | c :: cs => (c :: cs) :: tails cs

/-- The tails that begin after a slash, and the empty one at the end. -/
def tailsAfterSlash : List Char → List (List Char)
  | [] => [[]]
  | c :: cs => if c = '/' then cs :: tailsAfterSlash cs else tailsAfterSlash cs

/-- The tokens match the whole text. -/
def matchTokens : List Token → List Char → Bool
  | [], cs => cs.isEmpty
  | .one _ :: _, [] => false
  | .one test :: tokens, c :: cs => test.admits c && matchTokens tokens cs
  | .anyText :: tokens, cs => (tails cs).any (matchTokens tokens)
  | .anyDirectories :: tokens, cs => (cs :: tailsAfterSlash cs).any (matchTokens tokens)

/-- A compiled pattern matches the whole text. -/
def «matches» (tokens : List Token) (text : String) : Bool :=
  matchTokens tokens text.toList

/-- Those of the patterns that compile, compiled. -/
def compileAll (patterns : List String) : List (List Token) :=
  patterns.filterMap fun p => (compile p).toOption

/-- Some of the patterns that compile matches the text. -/
def matchesAny (patterns : List String) (text : String) : Bool :=
  (compileAll patterns).any («matches» · text)

end SourceLint.Glob
