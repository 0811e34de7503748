import SourceLint.Text.Cut

/-! # Paths

A path is kept as it is spelled and compared by its components: repeated and
trailing separators and inner `.` pieces do not count, while a leading `.` is a
component of its own. Stripping a root and reading the file name go by
components too; what they return is cut out of the spelling.
-/

namespace SourceLint

inductive Path.Component where
  /-- The root of the file system. -/
  | root
  /-- A leading `.`. -/
  | current
  /-- A `..` anywhere. -/
  | parent
  | normal (name : String)
  deriving Repr, DecidableEq, BEq

namespace Path.Component

/-- The kinds in order: root, `.`, `..`, names. -/
def rank : Component → Nat
  | root => 0
  | current => 1
  | parent => 2
  | normal _ => 3

/-- The name of a component, empty for the special ones. -/
def name : Component → String
  | normal n => n
  | _ => ""

/-- Kinds first, then names character by character. -/
instance : Ord Component :=
  ⟨compareLex (compareOn rank) (compareOn name)⟩

/-- The component that a piece inside a path stands for, if any. -/
def ofPiece (piece : String) : Option Component :=
  if piece = "" ∨ piece = "." then none
  else if piece = ".." then some parent
  else some (normal piece)

end Path.Component

/-- A path, as it is spelled. -/
structure Path where
  text : String
  deriving Repr, DecidableEq, Inhabited

namespace Path

/-- The pieces of a path between its slashes. -/
def pieces (p : Path) : List String :=
  Text.cut '/' p.text

/-- The components of a list of pieces that starts a path. -/
def componentsOfPieces : List String → List Component
  | [] => []
  | first :: rest =>
    let lead :=
      if first = "" then (if rest.isEmpty then none else some Component.root)
      else if first = "." then some .current
      else Component.ofPiece first
    lead.toList ++ rest.filterMap Component.ofPiece

def components (p : Path) : List Component :=
  componentsOfPieces p.pieces

/-- Component by component. -/
instance : Ord Path :=
  ⟨compareOn components⟩

/-- The two paths have the same components. -/
def same (p q : Path) : Bool :=
  p.components = q.components

/-- The path begins at the root of the file system. -/
def isAbsolute (p : Path) : Bool :=
  p.text.startsWith "/"

/-- The path `p` below the directory `base`, or `p` itself when it is absolute. -/
def join (base p : Path) : Path :=
  if p.isAbsolute then p
  else if base.text = "" ∨ base.text.endsWith "/" then ⟨base.text ++ p.text⟩
  else ⟨base.text ++ "/" ++ p.text⟩

/-- The last component, when it is a name. -/
def fileName (p : Path) : Option String :=
  match p.components.getLast? with
  | some (.normal name) => some name
  | _ => none

/-- The pieces without the meaningless ones at the end. -/
def trimPieces (ps : List String) : List String :=
  (ps.reverse.dropWhile fun piece => (Component.ofPiece piece).isNone).reverse

/-- Drop pieces until `n` components inside a path are gone, then those without meaning. -/
def dropBody : Nat → List String → List String
  | _, [] => []
  | 0, piece :: ps =>
    if (Component.ofPiece piece).isSome then piece :: ps else dropBody 0 ps
  | n + 1, piece :: ps =>
    if (Component.ofPiece piece).isSome then dropBody n ps else dropBody (n + 1) ps

/-- The spelling of what follows the first `n` components. -/
def dropComponents (p : Path) (n : Nat) : Path :=
  match n, p.pieces with
  | _, [] => p
  | 0, first :: rest =>
    let kept := trimPieces rest
    if first = "" ∧ ¬ rest.isEmpty ∧ kept.isEmpty then ⟨"/"⟩
    else ⟨"/".intercalate (first :: kept)⟩
  | n + 1, first :: rest =>
    let lead := (first = "" ∧ ¬ rest.isEmpty) ∨ first = "."
    let body := if lead then dropBody n rest else dropBody (n + 1) (first :: rest)
    ⟨"/".intercalate (trimPieces body)⟩

/-- What is left of `p` below `root`, when `p` lies there. -/
def stripRoot (p root : Path) : Option Path :=
  let base := root.components
  if base.isPrefixOf p.components then some (p.dropComponents base.length) else none

/-- The path of an entry called `name` in the directory `p`. -/
def child (p : Path) (name : String) : Path :=
  p.join ⟨name⟩

end Path

end SourceLint
