import SourceLint.Glob.Expansion

/-! # Discovering source files

The source files of a project are found by a pattern: the root of the project is taken
as it is spelled, and whatever in it looks like a wildcard works as one. Excludes are
matched against the whole spelling of each path.
-/

namespace SourceLint

/-- The pattern for all source files below a directory. -/
def sourcePattern (root : Path) : String :=
  root.text ++ "/**/*.rs"

/-- Some of the excludes that compile matches the path. -/
def isExcluded (excludes : List String) (path : Path) : Bool :=
  Glob.matchesAny excludes path.text

/-- The source files below a directory, without those excluded. -/
def discover (tree : FileTree) (root : Path) (excludes : List String) :
    Except Glob.Error (List Path) :=
  (Glob.expand tree (sourcePattern root)).map fun paths =>
    paths.filter fun path => !isExcluded excludes path

end SourceLint
