import SourceLint.FileTree
import SourceLint.Glob.Matching

/-! # Expanding a pattern

A pattern with slashes stands for paths in a file tree. It is taken apart at the
slashes, and each piece has its say about one name: a literal piece is followed as it
is, any other one is matched against the names in the directory reached so far, and
`**` leads to everything below it. The paths are spelled as the pattern leads to them.
-/

namespace SourceLint.Glob

/-- A piece of a pattern between two slashes. -/
inductive Piece where
  /-- A name, `.`, `..` or nothing. -/
  | literal (name : String)
  /-- A pattern for one name. -/
  | wildcard (tokens : List Token)
  /-- Any number of directories. -/
  | directories
  deriving Repr, DecidableEq, BEq

namespace Piece

/-- The token is a character that stands for itself. -/
def isPlain : Token → Bool
  | .one (.is _) => true
  | _ => false

def compile (spelling : String) : Except Error Piece :=
  (Glob.compile spelling).map fun tokens =>
    if tokens = [.anyDirectories] then directories
    else if tokens.all isPlain then literal spelling
    else wildcard tokens

/-- The piece matches a name. -/
def admits (name : String) : Piece → Bool
  | literal spelling => name = spelling
  | wildcard tokens => Glob.matches tokens name
  | directories => true

/-- The special names that the tokens match. They are asked about only by a pattern that
starts with a dot of its own. -/
def specialNames (tokens : List Token) : List String :=
  if tokens.head? = some (.one (.is '.')) then ["..", "."].filter (Glob.matches tokens) else []

/-- The names in a directory that the tokens match. -/
def namesIn (tree : FileTree) (dir : Path) (tokens : List Token) : List String :=
  if tree.isDirectory dir then
    specialNames tokens ++ (tree.names dir).filter (Glob.matches tokens)
  else []

/-- A special name leads somewhere from a directory only, any other name if it is there. -/
def leads (tree : FileTree) (dir : Path) (name : String) : Bool :=
  if name = "." ∨ name = ".." then tree.isDirectory dir else tree.exists (dir.join ⟨name⟩)

end Piece

/-- The paths that pieces lead to from the path `dir`. -/
def expandFrom (tree : FileTree) : List Piece → Path → List Path
  | [], dir => [dir]
  | .literal name :: pieces, dir =>
    if Piece.leads tree dir name then expandFrom tree pieces (dir.join ⟨name⟩) else []
  | .wildcard tokens :: pieces, dir =>
    (Piece.namesIn tree dir tokens).flatMap fun name => expandFrom tree pieces (dir.child name)
  | .directories :: .directories :: pieces, dir => expandFrom tree (.directories :: pieces) dir
  | .directories :: piece :: pieces, dir =>
    (tree.descendants dir).flatMap fun (path, name) =>
      if piece.admits name then expandFrom tree pieces path else []
  | [.directories], dir => (tree.descendants dir).filterMap fun (path, _) =>
    if tree.isDirectory path then some path else none

/-- Where a pattern starts, and the pieces that lead on from there: from the root of the file system
if the first piece is nothing. More slashes at the start are pieces of their own, and lead nowhere
else. -/
def splitRoot (pieces : List String) : Path × List String :=
  if pieces.head? = some "" then (⟨"/"⟩, pieces.tail) else (⟨""⟩, pieces)

/-- The paths that a pattern from the root of the file system stands for. It has to
compile as a whole and piece by piece. -/
def expand (tree : FileTree) (pattern : String) : Except Error (List Path) := do
  discard (compile pattern)
  let (root, spellings) := splitRoot (Path.pieces ⟨pattern⟩)
  return expandFrom tree (← spellings.mapM Piece.compile) root

end SourceLint.Glob
