import SourceLint.Path

/-! # File trees

A file system at one moment: directories with named entries, and files with bytes. A
path is looked up piece by piece from the root; `..` leads back along the way taken,
and nothing lies below a file. The entries of a directory are listed by name.
-/

namespace SourceLint

/-- Why a file cannot be read as text. -/
inductive ReadError where
  /-- There is no such file. -/
  | notFound
  /-- Something on the way is a file. -/
  | notDirectory
  | isDirectory
  /-- Its bytes are not UTF-8. -/
  | notText
  deriving Repr, DecidableEq, BEq

/-- The error in words. -/
def ReadError.message : ReadError → String
  | notFound => "No such file or directory (os error 2)"
  | notDirectory => "Not a directory (os error 20)"
  | isDirectory => "Is a directory (os error 21)"
  | notText => "stream did not contain valid UTF-8"

/-- A file, or a directory with all that is below it. -/
inductive FileTree where
  | file (bytes : ByteArray)
  | directory (entries : List (String × FileTree))

namespace FileTree

instance : Inhabited FileTree := ⟨directory []⟩

/-- A file that holds a text. -/
def ofText (content : String) : FileTree :=
  file content.toUTF8

def text : FileTree → Except ReadError String
  | file bytes =>
    match String.fromUTF8? bytes with
    | some content => .ok content
    | none => .error .notText
  | directory _ => .error .isDirectory

/-- The entries of a directory. A file has none. -/
def entries : FileTree → List (String × FileTree)
  | file _ => []
  | directory entries => entries

/-- The way on by one piece of a path. A way is what it leads to, followed by the
directories it came through, the nearest first. -/
def step (way : FileTree × List FileTree) (piece : String) :
    Except ReadError (FileTree × List FileTree) :=
  match way with
  | (file _, _) => .error .notDirectory
  | (directory entries, above) =>
    if piece = "" ∨ piece = "." then .ok (directory entries, above)
    else if piece = ".." then
      match above with
      | [] => .ok (directory entries, [])
      | parent :: above => .ok (parent, above)
    else
      match entries.lookup piece with
      | some entry => .ok (entry, directory entries :: above)
      | none => .error .notFound

/-- What stands at a path from the root. -/
def find (tree : FileTree) (path : Path) : Except ReadError FileTree :=
  (path.pieces.foldlM step (tree, [])).map Prod.fst

/-- Something stands at the path. -/
def «exists» (tree : FileTree) (path : Path) : Bool :=
  (tree.find path).toBool

/-- A directory stands at the path. -/
def isDirectory (tree : FileTree) (path : Path) : Bool :=
  match tree.find path with
  | .ok (directory _) => true
  | _ => false

/-- A file stands at the path. -/
def isFile (tree : FileTree) (path : Path) : Bool :=
  match tree.find path with
  | .ok (file _) => true
  | _ => false

/-- The text of the file at a path. -/
def read (tree : FileTree) (path : Path) : Except ReadError String :=
  tree.find path >>= text

/-- Named things in the order of their names. -/
def byName (named : List (String × α)) : List (String × α) :=
  named.mergeSort fun a b => a.1 ≤ b.1

/-- The names in the directory at a path, in order. -/
def names (tree : FileTree) (path : Path) : List String :=
  match tree.find path with
  | .ok found => (byName found.entries).map Prod.fst
  | .error _ => []

mutual

/-- The paths of all that is below `dir`, each with its name and ahead of what is below
it in turn. -/
def contents (dir : Path) : FileTree → List (Path × String)
  | file _ => []
  | directory entries => (byName (contentsOfEach dir entries)).flatMap Prod.snd

/-- For each entry of `dir` its own path and the paths below it. -/
def contentsOfEach (dir : Path) :
    List (String × FileTree) → List (String × List (Path × String))
  | [] => []
  | (name, entry) :: entries =>
    (name, (dir.child name, name) :: contents (dir.child name) entry) :: contentsOfEach dir entries

end

/-- The paths of all that is below the directory at a path. -/
def descendants (tree : FileTree) (path : Path) : List (Path × String) :=
  match tree.find path with
  | .ok found => found.contents path
  | .error _ => []

/-- Entries in which `name` stands for `entry`. -/
def setEntry (name : String) (entry : FileTree) :
    List (String × FileTree) → List (String × FileTree)
  | [] => [(name, entry)]
  | (other, old) :: entries =>
    if other = name then (name, entry) :: entries else (other, old) :: setEntry name entry entries

/-- A tree in which `f` has been applied to what stands at some names below it. Directories
on the way are made as needed. -/
def alter (f : Option FileTree → FileTree) : List String → Option FileTree → FileTree
  | [], tree => f tree
  | name :: names, tree =>
    let entries := (tree.map entries).getD []
    directory (setEntry name (alter f names (entries.lookup name)) entries)

/-- The names that lead to a path from the root. -/
def namesTo (path : Path) : List String :=
  path.components.foldl (fun names component =>
    match component with
    | .normal name => names ++ [name]
    | .parent => names.dropLast
    | _ => names) []

/-- The tree with a file or an empty directory put at a path. A directory that is there
already keeps its entries. -/
def put (tree : FileTree) (path : Path) (entry : FileTree) : FileTree :=
  let place : Option FileTree → FileTree := fun old =>
    match entry, old with
    | directory [], some (directory entries) => directory entries
    | _, _ => entry
  alter place (namesTo path) (some tree)

end FileTree

end SourceLint
