import SourceLint.Path

/-! # Source files

A file that is looked at, with its path below the root of the project. Files of
tests are known by that path alone: by a directory on the way, or by their name.
-/

namespace SourceLint

/-- Directories whose files are tests. -/
def testDirectories : List String := ["tests", "benches"]

/-- The path is that of a file of tests. -/
def Path.isTest (p : Path) : Bool :=
  p.components.any (fun
    | .normal name => name ∈ testDirectories
    | _ => false) ||
  (match p.fileName with
    | some name => name.endsWith "_test.rs" || name = "tests.rs"
    | none => false)

/-- A file that is looked at. -/
structure SourceFile where
  path : Path
  content : String
  relativePath : Path
  deriving Repr, DecidableEq, Inhabited

namespace SourceFile

/-- The file at `path`, seen from `root`; a path that is not below it stays whole. -/
def under (root path : Path) (content : String) : SourceFile :=
  ⟨path, content, (path.stripRoot root).getD path⟩

/-- The file holds tests. -/
def isTest (f : SourceFile) : Bool :=
  f.relativePath.isTest

end SourceFile

end SourceLint
