import SourceLint.Config.Validation
import SourceLint.FileTree
import SourceLint.Markup.Document

/-! # Loading a configuration document

Loading reads, parses, binds and validates. It always has an outcome: a failure
leaves the default configuration, and so does a missing or blank document, which
is no failure.
-/

namespace SourceLint

/-- A configuration document that may not exist. -/
inductive Document where
  /-- None: the defaults apply. -/
  | absent
  /-- A text with the path it goes by. -/
  | text (path : Path) (content : String)
  /-- A file, read when it is loaded. -/
  | file (path : Path)
  deriving Repr, DecidableEq, Inhabited

def Document.path? : Document → Option Path
  | absent => none
  | text path _ => some path
  | file path => some path

/-- What stopped a load. -/
inductive LoadFailure where
  /-- The document cannot be read. -/
  | unreadable (path : Path) (error : ReadError)
  /-- The document is not well formed. -/
  | malformed (error : Markup.Error)
  /-- The document does not fit the schema. -/
  | mismatch (error : Binding.Error)
  deriving Repr, DecidableEq

namespace LoadFailure

/-- The failure in words. -/
def message : LoadFailure → String
  | unreadable path e => "failed to read " ++ path.text ++ ": " ++ e.message
  | malformed e => e.message
  | mismatch e => e.message

/-- Where the document fails, if that is known. -/
def position? : LoadFailure → Option Position
  | unreadable _ _ => some .start
  | malformed e => some e.position
  | mismatch e => e.position?

end LoadFailure

/-- The outcome of loading a document. -/
structure LoadOutcome where
  config : Config := {}
  path : Option Path := none
  failure : Option LoadFailure := none
  issues : List Issue := []
  deriving Repr, DecidableEq, Inhabited

namespace LoadOutcome

/-- Nothing is wrong with the document. -/
def isClean (o : LoadOutcome) : Bool :=
  o.failure.isNone && o.issues.isEmpty

def failed (path : Path) (failure : LoadFailure) : LoadOutcome :=
  { path := some path, failure := some failure }

/-- The outcome for a text with the path it goes by. -/
def ofText (path : Path) (content : String) : LoadOutcome :=
  if Text.isBlankText content then { path := some path }
  else
    match Markup.parse content with
    | .error e => failed path (.malformed e)
    | .ok root =>
      match Config.bind root with
      | .error e => failed path (.mismatch e)
      | .ok config => { config, path := some path, issues := config.validate }

end LoadOutcome

/-- Load a document, `read` giving the text of a file. -/
def Document.load (read : Path → Except ReadError String) : Document → LoadOutcome
  | absent => {}
  | text path content => .ofText path content
  | file path =>
    match read path with
    | .error e => .failed path (.unreadable path e)
    | .ok content => .ofText path content

end SourceLint
