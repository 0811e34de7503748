import SourceLint.CommandLine.Vocabulary

/-! # Reading arguments

Each word is an option, a few letters that are options, or a plain word. An option takes
its value from its own word, if there is more to that, and from the next one otherwise;
a next word that looks like an option itself is no value. After `--` every word is
plain.
-/

namespace SourceLint.CommandLine

/-- An option that has been given, with its value. -/
abbrev Given := Switch × Option String

inductive Word where
  /-- A word that is no option. -/
  | plain
  /-- From here on all words are plain. -/
  | endOfOptions
  /-- Options that are complete. -/
  | complete (given : List Given)
  /-- Options of which the last one takes the next word as its value. -/
  | pending (given : List Given) (last : Switch)
  deriving Repr, DecidableEq, BEq

/-- What letters after one hyphen are. -/
def readLetters (switches : List Switch) : List Char → Option Word
  | [] => some (.complete [])
  | c :: cs => do
    let s ← switches.find? (·.letter? = some c)
    if s.takesValue then
      match cs with
      | [] => return .pending [] s
      | '=' :: value => return .complete [(s, some (String.ofList value))]
      | value => return .complete [(s, some (String.ofList value))]
    else
      match ← readLetters switches cs with
      | .complete given => return .complete ((s, none) :: given)
      | .pending given last => return .pending ((s, none) :: given) last
      | word => return word

/-- What a name after two hyphens is, possibly with a value after an equals sign. -/
def readName (switches : List Switch) (cs : List Char) : Option Word := do
  let name := cs.takeWhile (· ≠ '=')
  let s ← switches.find? (·.name.toList = name)
  match s.takesValue, cs.dropWhile (· ≠ '=') with
  | true, [] => return .pending [] s
  | true, _ :: value => return .complete [(s, some (String.ofList value))]
  | false, [] => return .complete [(s, none)]
  | false, _ => none

/-- What a word is, unless it is an option that does not exist. -/
def readWord (switches : List Switch) (word : String) : Option Word :=
  match word.toList with
  | ['-', '-'] => some .endOfOptions
  | '-' :: '-' :: cs => readName switches cs
  | ['-'] => some .plain
  | '-' :: cs => readLetters switches cs
  | _ => some .plain

/-- The word can be the value of the option before it. -/
def isValue (word : String) : Bool :=
  match word.toList with
  | ['-'] => true
  | '-' :: _ => false
  | _ => true

/-- The options and the plain words that have been given. -/
structure Arguments where
  given : List Given := []
  plain : List String := []
  deriving Repr, DecidableEq

/-- The arguments with more options in front. -/
def Arguments.after (given : List Given) (a : Arguments) : Arguments :=
  { a with given := given ++ a.given }

/-- The arguments that words amount to. -/
def readArguments (switches : List Switch) : List String → Option Arguments
  | [] => some {}
  | word :: words =>
    match readWord switches word with
    | none => none
    | some .plain =>
      (readArguments switches words).map fun a => { a with plain := word :: a.plain }
    | some .endOfOptions => some { plain := words }
    | some (.complete given) => (readArguments switches words).map (.after given)
    | some (.pending given last) =>
      match words with
      | [] => none
      | value :: words =>
        if isValue value then
          (readArguments switches words).map (.after (given ++ [(last, some value)]))
        else none

/-- The options before the verb, the verb, and the words after it. -/
def readVerb : List String → Option (List Given × Verb × List String)
  | [] => none
  | word :: words =>
    match readWord Switch.shared word with
    | none | some .endOfOptions => none
    | some .plain => (Verb.named? word).map fun verb => ([], verb, words)
    | some (.complete given) =>
      (readVerb words).map fun (more, verb, words) => (given ++ more, verb, words)
    | some (.pending given last) =>
      match words with
      | [] => none
      | value :: words =>
        if isValue value then
          (readVerb words).map fun (more, verb, words) =>
            (given ++ (last, some value) :: more, verb, words)
        else none

namespace Given

/-- The option is among those given. -/
def has (s : Switch) (given : List Given) : Bool :=
  given.any (·.1 = s)

/-- The values given for an option. -/
def values (s : Switch) (given : List Given) : List String :=
  given.filterMap fun (other, value) => if other = s then value else none

/-- No option is given twice that must not be. -/
def isSound (given : List Given) : Bool :=
  given.all fun (s, _) => s.repeats || given.countP (·.1 = s) ≤ 1

end Given

end SourceLint.CommandLine
