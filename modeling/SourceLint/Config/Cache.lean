import SourceLint.Config.Document
import SourceLint.Text.Literal

/-! # Loading once

A run loads its configuration at most once. The first caller runs the loader and
leaves the outcome behind; from then on every caller gets that outcome. A caller
that has been cancelled does not start a load, but still gets an outcome that is
there.
-/

namespace SourceLint

/-- Holds the configuration of a run. -/
structure Cache where
  document : Document
  /-- The outcome, once it is there. -/
  slot : Option LoadOutcome := none
  /-- How often the loader has run. -/
  loads : Nat := 0
  deriving Repr, Inhabited

namespace Cache

/-- What cancelled callers are told. -/
def cancelledMessage : String := "configuration load cancelled before it started"

/-- The outcome, loaded on first use. -/
def load (loader : Document → LoadOutcome) (c : Cache) : LoadOutcome × Cache :=
  match c.slot with
  | some outcome => (outcome, c)
  | none =>
    let outcome := loader c.document
    (outcome, { c with slot := some outcome, loads := c.loads + 1 })

/-- The outcome, loaded on first use unless the caller has been cancelled. -/
def tryLoad (loader : Document → LoadOutcome) (cancelled : Bool) (c : Cache) :
    Option LoadOutcome × Cache :=
  match c.slot, cancelled with
  | none, true => (none, c)
  | _, _ =>
    let (outcome, loaded) := c.load loader
    (some outcome, loaded)

/-- What `n` callers get, one after the other. -/
def loadMany (loader : Document → LoadOutcome) : Nat → Cache → List LoadOutcome × Cache
  | 0, c => ([], c)
  | n + 1, c =>
    let (outcome, loaded) := c.load loader
    let (outcomes, final) := loadMany loader n loaded
    (outcome :: outcomes, final)

/-- A text that may be missing, as a description shows it. -/
def describeText : Option String → String
  | some s => "Some(" ++ Text.literal s ++ ")"
  | none => "None"

/-- The text of a document that is in memory. -/
def textOf? : Document → Option String
  | .text _ content => some content
  | _ => none

/-- A cache in words: its document, and whether that is loaded. -/
def describe (c : Cache) : String :=
  "ConfigCache \x7b document: ConfigDocument \x7b path: " ++
    describeText (c.document.path?.map (·.text)) ++ ", text: " ++
    describeText (textOf? c.document) ++ " \x7d, loaded: " ++
    (if c.slot.isSome then "true" else "false") ++ ", .. \x7d"

end Cache

end SourceLint
