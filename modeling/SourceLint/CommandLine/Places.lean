import SourceLint.CommandLine.Run

/-! # What a command line looks at

An invocation looks at a small part of the file system: the documents that may configure
it, and for a check all that is below the root of the project. A root that leads back on
its way, or has wildcards, is covered by a directory further up.
-/

namespace SourceLint.CommandLine

/-- The piece of a path is no wildcard. -/
def isLiteral (piece : String) : Bool :=
  !piece.toList.any (· ∈ ['*', '?', '['])

/-- The names that lead to a directory in which all of a path lies: those of the shortest
way that `..` leads back to. -/
def coverFrom (shortest : Option (List String)) (names : List String) :
    List String → List String
  | [] => shortest.getD names
  | piece :: pieces =>
    match Path.Component.ofPiece piece with
    | none => coverFrom shortest names pieces
    | some .parent =>
      let back := names.dropLast
      let shorter := match shortest with
        | some known => if known.length ≤ back.length then known else back
        | none => back
      coverFrom (some shorter) back pieces
    | some _ => coverFrom shortest (names ++ [piece]) pieces

/-- A directory in which all that a path with wildcards stands for lies. -/
def cover (path : Path) : Path :=
  ⟨"/" ++ "/".intercalate (coverFrom none [] (path.pieces.takeWhile isLiteral))⟩

/-- The documents that an invocation may read. -/
def Invocation.documents (e : Environment) (i : Invocation) : List Path :=
  let named := match i.command with
    | .check project _ | .checkConfig project => i.config.toList ++ candidates e project
    | .listRules | .init _ => []
  named.map e.directory.join

/-- The paths that an invocation looks at, with all that is below them. -/
def Invocation.places (e : Environment) (i : Invocation) : List Path :=
  match i.command with
  | .check project _ => cover (e.directory.join project) :: i.documents e
  | .checkConfig _ => i.documents e
  | .listRules => []
  | .init _ => [startPath e]

/-- An invocation may read the file at a path. -/
def Invocation.mayRead (e : Environment) (i : Invocation) (path : Path) : Bool :=
  path.text.endsWith ".rs" ||
    (i.documents e).any fun p => FileTree.namesTo p = FileTree.namesTo path

end SourceLint.CommandLine
