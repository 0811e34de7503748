import SourceLint.Source.Node
import SourceLint.Source.Token.Literal

/-! # Reading syntax

A reader takes a piece of syntax off the front of a list of token trees, or refuses
it. What stands between two delimiters must be read to its end. The questions about
what comes next are asked of the list of trees and take nothing off.
-/

namespace SourceLint.Source

/-- Takes a piece of syntax off the front of token trees. -/
abbrev Reader (W : Name → Prop) := StateT (List (Token W)) Option

variable {W : Name → Prop}

namespace Token

/-- Words that are no identifiers. -/
def keywords : List String :=
  ["_", "abstract", "as", "async", "await", "become", "box", "break", "const", "continue",
    "crate", "do", "dyn", "else", "enum", "extern", "false", "final", "fn", "for", "if", "impl",
    "in", "let", "loop", "macro", "match", "mod", "move", "mut", "override", "priv", "pub", "ref",
    "return", "Self", "self", "static", "struct", "super", "trait", "true", "try", "type",
    "typeof", "unsafe", "unsized", "use", "virtual", "where", "while", "yield"]

/-- The punctuation `cs` comes next, its characters joined to one another. -/
def startsMarks : List Char → List (Token W) → Bool
  | [], _ => true
  | [c], .mark d _ :: _ => c = d
  | c :: cs, .mark d joint :: ts => c = d && joint && startsMarks cs ts
  | _, _ => false

/-- The punctuation `s` comes next. -/
def isMark (s : String) (ts : List (Token W)) : Bool :=
  startsMarks s.toList ts

def isWord (s : String) : List (Token W) → Bool
  | .word name :: _ => name.text = s
  | _ => false

def isAnyOf (words : List String) : List (Token W) → Bool
  | .word name :: _ => name.text ∈ words
  | _ => false

/-- A word comes next, which may be a keyword. -/
def isAnyWord : List (Token W) → Bool
  | .word .. :: _ => true
  | _ => false

def isIdentifier : List (Token W) → Bool
  | .word name :: _ => name.text ∉ keywords
  | _ => false

def isLifetime : List (Token W) → Bool
  | .mark '\'' _ :: .word .. :: _ => true
  | _ => false

def isGroup (d : Delimiter) : List (Token W) → Bool
  | .group e _ :: _ => d = e
  | _ => false

def isAnyGroup : List (Token W) → Bool
  | .group .. :: _ => true
  | _ => false

/-- A string literal without an encoding of its own. -/
def isStringText (text : String) : Bool :=
  text.startsWith "\"" || text.startsWith "r"

def isString : List (Token W) → Bool
  | .literal text :: _ => isStringText text
  | _ => false

/-- A literal that is a number. -/
def isNumberText (text : String) : Bool :=
  (text.toList.head?.map isDigitChar).getD false
where
  isDigitChar (c : Char) : Bool := '0' ≤ c && c ≤ '9'

/-- A literal comes next: one token, a truth value, or a number with its sign. -/
def isLiteral : List (Token W) → Bool
  | .literal _ :: _ => true
  | .word name :: _ => name.text = "true" || name.text = "false"
  | .mark '-' _ :: .literal text :: _ => isNumberText text
  | _ => false

/-- What follows the next token, a lifetime counting as one. -/
def skip : List (Token W) → List (Token W)
  | .mark '\'' _ :: .word .. :: ts => ts
  | _ :: ts => ts
  | [] => []

/-- A question asked of what comes after the next token. -/
def second (question : List (Token W) → Bool) (ts : List (Token W)) : Bool :=
  question (skip ts)

/-- A question asked of what comes after the next two tokens. -/
def third (question : List (Token W) → Bool) (ts : List (Token W)) : Bool :=
  question (skip (skip ts))

end Token

open Token

namespace Reader

/-- What a question about what comes next says. -/
def peek (question : List (Token W) → Bool) : Reader W Bool :=
  return question (← get)

/-- Refuse unless what comes next answers the question. -/
def need (question : List (Token W) → Bool) : Reader W Unit := do
  if !question (← get) then failure

def anyToken : Reader W (Token W) := do
  match ← get with
  | t :: ts =>
    set ts
    return t
  | [] => failure

/-- The punctuation `s`. -/
def mark (s : String) : Reader W Unit := do
  need (isMark s)
  modify (·.drop s.length)

/-- The punctuation `s` if it comes next, and whether it did. -/
def markIf (s : String) : Reader W Bool := do
  if ← peek (isMark s) then
    mark s
    return true
  else return false

def anyWord : Reader W (Word W) := do
  match ← get with
  | .word name :: ts =>
    set ts
    return name
  | _ => failure

def word (s : String) : Reader W Unit := do
  need (isWord s)
  modify (·.drop 1)

/-- The word `s` if it comes next, and whether it did. -/
def wordIf (s : String) : Reader W Bool := do
  if ← peek (isWord s) then
    word s
    return true
  else return false

def identifier : Reader W (Word W) := do
  need isIdentifier
  anyWord

def lifetime : Reader W Unit := do
  need isLifetime
  modify (·.drop 2)

def lifetimeIf : Reader W Unit := do
  if ← peek isLifetime then lifetime

def literal : Reader W Unit := do
  need isLiteral
  if ← peek (isMark "-") then mark "-"
  discard anyToken

def stringIf : Reader W Unit := do
  if ← peek isString then discard anyToken

def fieldIndex : Reader W Unit := do
  match ← anyToken with
  | .literal text => if isIndex text.toList then return () else failure
  | _ => failure

/-- What stands in a group of the kind, read to its end. -/
def inGroup (d : Delimiter) (content : Reader W α) : Reader W α := do
  match ← get with
  | .group e inside :: ts =>
    match content inside with
    | some (a, []) =>
      if d = e then
        set ts
        return a
      else failure
    | _ => failure
  | _ => failure

/-- The tokens of the next group, of whatever kind, and its kind. -/
def anyGroup : Reader W (Delimiter × List (Token W)) := do
  match ← get with
  | .group d inside :: ts =>
    set ts
    return (d, inside)
  | _ => failure

def rest : Reader W (List (Token W)) := do
  let ts ← get
  set ([] : List (Token W))
  return ts

/-- At most `steps` items, as long as `more` holds of what comes next. -/
def manyUpTo (more : List (Token W) → Bool) (item : Reader W α) : Nat → Reader W (List α)
  | 0 => return []
  | steps + 1 => do
    if ← peek more then
      let a ← item
      return a :: (← manyUpTo more item steps)
    else return []

/-- Items as long as `more` holds of what comes next. -/
def many (more : List (Token W) → Bool) (item : Reader W α) : Reader W (List α) := do
  manyUpTo more item (← get).length

/-- Items up to the end. -/
def all (item : Reader W α) : Reader W (List α) :=
  many (!·.isEmpty) item

/-- At most `steps` items with a separator after each but perhaps the last, up to where
`stop` holds. -/
def separatedUpTo (separator : String) (stop : List (Token W) → Bool) (item : Reader W α) :
    Nat → Reader W (List α)
  | 0 => return []
  | steps + 1 => do
    if ← peek stop then return []
    let a ← item
    if ← peek stop then return [a]
    mark separator
    return a :: (← separatedUpTo separator stop item steps)

/-- Items with a separator after each but perhaps the last, up to where `stop` holds. -/
def separated (separator : String) (stop : List (Token W) → Bool) (item : Reader W α) :
    Reader W (List α) := do
  separatedUpTo separator stop item ((← get).length + 1)

/-- At most `steps` items, going on after each separator unless `stop` holds there. -/
def chainedUpTo (separator : String) (stop : List (Token W) → Bool) (item : Reader W α) :
    Nat → Reader W (List α)
  | 0 => return []
  | steps + 1 => do
    if ← peek stop then return []
    let a ← item
    if ← markIf separator then return a :: (← chainedUpTo separator stop item steps)
    return [a]

/-- Items, going on after each separator unless `stop` holds there. -/
def chained (separator : String) (stop : List (Token W) → Bool) (item : Reader W α) :
    Reader W (List α) := do
  chainedUpTo separator stop item ((← get).length + 1)

/-- Items with a comma after each but perhaps the last, up to the end. -/
def commaList (item : Reader W α) : Reader W (List α) :=
  separated "," List.isEmpty item

/-- What `item` reads, if it reads something here without error. -/
def attempt (item : Reader W α) : Reader W (Option α) := fun ts =>
  match item ts with
  | some (a, rest) => some (some a, rest)
  | none => some (none, ts)

end Reader

end SourceLint.Source
