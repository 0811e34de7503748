import SourceLint.Source.Token
import SourceLint.Source.Token.Blank
import SourceLint.Source.Token.Literal
import SourceLint.Text.Literal

/-! # Reading token trees

A text is first cut into lexemes, then the delimiters among them are paired. A
text that holds anything else, or delimiters that do not pair, has no trees.
-/

namespace SourceLint.Source

/-- What a text is cut into. -/
inductive Lexeme where
  | opening (delimiter : Delimiter)
  | closing (delimiter : Delimiter)
  | word (name : Name)
  | mark (c : Char) (joint : Bool)
  | literal (text : String)
  deriving Repr, Inhabited

/-- The delimiter that a character opens. -/
def opens? (c : Char) : Option Delimiter :=
  if c = '(' then some .parenthesis
  else if c = '[' then some .bracket
  else if c = '\x7b' then some .brace
  else none

/-- The delimiter that a character closes. -/
def closes? (c : Char) : Option Delimiter :=
  if c = ')' then some .parenthesis
  else if c = ']' then some .bracket
  else if c = '\x7d' then some .brace
  else none

/-- The characters of punctuation, the quote of a lifetime among them. -/
def punctuation : List Char :=
  "~!@#$%^&*-=+|;:,<.>/?'".toList

/-- A character of punctuation comes next, and not a comment. -/
def startsMark : List Char → Bool
  | '/' :: '/' :: _ => false
  | '/' :: '*' :: _ => false
  | c :: _ => c ∈ punctuation
  | [] => false

/-- Words that have no raw form. -/
def neverRaw : List String := ["_", "super", "self", "Self", "crate"]

/-- The length of the identifier in front, which may be raw. -/
def wordLength? (cs : List Char) : Option Nat :=
  match cs with
  | 'r' :: '#' :: rest =>
    let n := identifierLength rest
    if n = 0 ∨ String.ofList (rest.take n) ∈ neverRaw then none else some (n + 2)
  | _ =>
    let n := identifierLength cs
    if n = 0 then none else some n

/-- What begins like a literal and is no identifier. -/
def literalStarts : List String :=
  ["r\"", "r#\"", "r##", "b\"", "b'", "br\"", "br#", "c\"", "cr\"", "cr#"]

/-- The text goes on with one of `starts`. -/
def startsWithAny (starts : List String) (cs : List Char) : Bool :=
  starts.any fun s => s.toList.isPrefixOf cs

/-- A quote that begins a lifetime. -/
def startsLifetime (rest : List Char) : Bool :=
  match wordLength? rest with
  | some n =>
    match (rest.drop n).head? with
    | some '\'' => false
    | some '#' => "r#".toList.isPrefixOf rest
    | _ => true
  | none => false

/-- A place that the compiler has marked as an error, which reads as a literal. -/
def errorMark : List Char := "(/*ERROR*/)".toList

/-- The lexeme in front of a text at `p` that is no delimiter, with its length. -/
def leaf? (p : Position) (cs : List Char) : Option (Nat × Lexeme) :=
  match literal? cs with
  | some n => some (n, .literal (String.ofList (cs.take n)))
  | none =>
    match cs with
    | '\'' :: rest => if startsLifetime rest then some (1, .mark '\'' true) else none
    | c :: rest =>
      if startsMark cs then some (1, .mark c (startsMark rest))
      else
        match if startsWithAny literalStarts cs then none else wordLength? cs with
        | some n => some (n, .word ⟨String.ofList (cs.take n), p⟩)
        | none =>
          if errorMark.isPrefixOf cs then
            some (errorMark.length, .literal (String.ofList errorMark))
          else none
    | [] => none

/-- The text of a documenting comment in front, whether it is about what encloses it,
and the length of the comment. -/
def docComment? (cs : List Char) : Option (List Char × Bool × Nat) :=
  match cs with
  | '/' :: '/' :: '!' :: rest => some (line rest, true, lineLength cs)
  | '/' :: '*' :: '!' :: rest => (blockLength? cs).map fun n => (rest.take (n - 5), true, n)
  | '/' :: '/' :: '/' :: '/' :: _ => none
  | '/' :: '/' :: '/' :: rest => some (line rest, false, lineLength cs)
  | '/' :: '*' :: '*' :: '*' :: _ => none
  | '/' :: '*' :: '*' :: rest => (blockLength? cs).map fun n => (rest.take (n - 5), false, n)
  | _ => none
where
  /-- What stands on the line, without its line end. -/
  line (rest : List Char) : List Char :=
    let text := rest.takeWhile (· ≠ '\n')
    if text.length < rest.length ∧ text.getLast? = some '\r' then text.dropLast else text

/-- Every carriage return is followed by a line feed. -/
def returnsPaired : List Char → Bool
  | [] => true
  | '\r' :: '\n' :: cs => returnsPaired cs
  | c :: cs => c ≠ '\r' && returnsPaired cs

/-- The attribute that a documenting comment abbreviates. -/
def docAttribute (p : Position) (text : List Char) (inner : Bool) : List Lexeme :=
  [.mark '#' false] ++ (if inner then [.mark '!' false] else []) ++
    [.opening .bracket, .word ⟨"doc", p⟩, .mark '=' false,
      .literal (Text.literal (String.ofList text)), .closing .bracket]

/-- The piece in front of a text at `p`: its length, and the lexemes it gives. -/
def piece? (p : Position) (cs : List Char) : Option (Nat × List Lexeme) :=
  match blank? cs with
  | some n => some (n, [])
  | none =>
    match docComment? cs with
    | some (text, inner, n) => if returnsPaired text then some (n, docAttribute p text inner) else none
    | none =>
      match cs with
      | [] => none
      | c :: _ =>
        match if errorMark.isPrefixOf cs then none else opens? c, closes? c with
        | some d, _ => some (1, [.opening d])
        | _, some d => some (1, [.closing d])
        | none, none => (leaf? p cs).map fun (n, lexeme) => (n, [lexeme])

/-- The lexemes of a text at `p` after those in `done`, the last one first; `skip`
characters belong to a piece that has been read. -/
def lexemesFrom (done : List Lexeme) : (skip : Nat) → Position → List Char → Option (List Lexeme)
  | _, _, [] => some done.reverse
  | skip + 1, p, c :: cs => lexemesFrom done skip (p.next c) cs
  | 0, p, c :: cs =>
    match piece? p (c :: cs) with
    | some (n, lexemes) => lexemesFrom (lexemes.reverse ++ done) (n - 1) (p.next c) cs
    | none => none

/-- The lexemes of a text. A byte order mark in front counts as a column only. -/
def lexemes? (cs : List Char) : Option (List Lexeme) :=
  lexemesFrom [] (if cs.head? = some '\ufeff' then 1 else 0) .start cs

/-- `W` holds of all words among the lexemes. -/
def Known (W : Name → Prop) (lexemes : List Lexeme) : Prop :=
  ∀ name, .word name ∈ lexemes → W name

section Pairing

variable {W : Name → Prop}

theorem Known.head {name : Name} {rest : List Lexeme} (known : Known W (.word name :: rest)) :
    W name :=
  known name List.mem_cons_self

theorem Known.tail {lexeme : Lexeme} {rest : List Lexeme} (known : Known W (lexeme :: rest)) :
    Known W rest :=
  fun name member => known name (List.mem_cons_of_mem _ member)

/-- The trees of lexemes. `opened` holds the delimiters that are open, each with the
trees before it, the last one first, and `done` the trees since the last of them. -/
def pair : (opened : List (Delimiter × List (Token W))) → (done : List (Token W)) →
    (lexemes : List Lexeme) → Known W lexemes → Option (List (Token W))
  | [], done, [], _ => some done.reverse
  | _ :: _, _, [], _ => none
  | opened, done, .opening d :: rest, known => pair ((d, done) :: opened) [] rest known.tail
  | (d, before) :: opened, done, .closing e :: rest, known =>
    if d = e then pair opened (.group d done.reverse :: before) rest known.tail else none
  | [], _, .closing _ :: _, _ => none
  | opened, done, .word name :: rest, known =>
    pair opened (.word ⟨name, known.head⟩ :: done) rest known.tail
  | opened, done, .mark c joint :: rest, known =>
    pair opened (.mark c joint :: done) rest known.tail
  | opened, done, .literal text :: rest, known =>
    pair opened (.literal text :: done) rest known.tail

end Pairing

/-- The name is a word of the text. -/
def IsWordOf (cs : List Char) (name : Name) : Prop :=
  ∃ lexemes, lexemes? cs = some lexemes ∧ .word name ∈ lexemes

/-- The token trees of a text. -/
def trees? (cs : List Char) : Option (List (Token (IsWordOf cs))) :=
  match found : lexemes? cs with
  | some lexemes => pair [] [] lexemes fun _ member => ⟨lexemes, found, member⟩
  | none => none

end SourceLint.Source
