import SourceLint.Markup.Element
import SourceLint.Markup.Reference

/-! # Tags and the pieces between them

Each piece of a document is read by itself here: opening and closing tags,
comments, processing instructions, character data sections, text and the XML
declaration. What needs the surrounding elements, above all the namespaces, is
left to the reader of documents.
-/

namespace SourceLint.Markup

/-- The namespace of the prefix `xml`. -/
def xmlNamespace : String := "http://www.w3.org/XML/1998/namespace"

/-- The namespace of namespace declarations. -/
def declarationNamespace : String := "http://www.w3.org/2000/xmlns/"

/-- An attribute as a tag spells it, its value already denoted. -/
structure RawAttribute where
  name : QualifiedName
  value : String
  position : Position
  deriving Repr, Inhabited

/-- A prefix, or none for the default, and the namespace it stands for. -/
structure Declaration where
  qualifier : Option String
  namespaceName : String
  deriving Repr, DecidableEq, Inhabited

/-- How an opening tag ends. -/
inductive TagEnd where
  /-- With a slash: the element has no content. -/
  | empty
  /-- Content follows. -/
  | «open»
  /-- Not at all: the text ends right after a name or a value. -/
  | missing
  deriving Repr, DecidableEq

structure OpeningTag where
  name : QualifiedName
  position : Position
  attributes : List RawAttribute
  declarations : List Declaration
  ending : TagEnd
  deriving Repr

/-- An equals sign with white space around it. -/
def readEquals : Reader Unit := fun c => do
  let ((), c) ← c.skipSpaces.expect '='
  return ((), c.skipSpaces)

/-- A quote of either kind. -/
def readQuote : Reader Char := fun c =>
  match c.rest with
  | [] => .error .endOfText
  | ch :: _ =>
    if ch = '"' ∨ ch = '\'' then .ok (ch, c.advance 1)
    else .error (.expectedKind "a quote" ch c.position)

/-- A name, an equals sign and a quoted raw value, with the value's position. -/
def readPair : Reader (QualifiedName × List Char × Position) := fun c => do
  let (name, c) ← QualifiedName.read c
  let ((), c) ← readEquals c
  let (quote, c) ← readQuote c
  let (value, next) ← c.run fun cs => cs.head? = some quote || cs.head? = some '<'
  let ((), next) ← next.expect quote
  return ((name, value, c.position), next)

/-- An attribute with the value it denotes. -/
def readAttribute : Reader RawAttribute := fun c => do
  let ((name, raw, at_), next) ← readPair c
  let value ← denoted raw at_
  return (⟨name, value, c.position⟩, next)

/-- The declaration that an attribute makes, if it is one, checked against those
before it in the tag. -/
def declarationOf (before : List Declaration) (a : RawAttribute) :
    Except Error (Option (List Declaration)) :=
  if a.name.qualifier = "xmlns" then
    if a.value = declarationNamespace then .error (.declarationNamespaceUsed a.position)
    else if a.name.local = "xml" ∧ a.value ≠ xmlNamespace then
      .error (.reservedPrefixRebound a.position)
    else if a.name.local ≠ "xml" ∧ a.value = xmlNamespace then
      .error (.reservedNamespaceReused a.position)
    else if before.any (·.qualifier = some a.name.local) then
      .error (.namespaceTwice a.name.local a.position)
    else if a.value = xmlNamespace then .ok (some [])
    else .ok (some [⟨some a.name.local, a.value⟩])
  else if a.name.local = "xmlns" then
    if a.value = xmlNamespace then .error (.reservedNamespaceReused a.position)
    else if a.value = declarationNamespace then .error (.declarationNamespaceUsed a.position)
    else .ok (some [⟨none, a.value⟩])
  else .ok none

/-- The attributes and the end of an opening tag, read in at most `steps` steps. -/
def readTagRest : Nat → OpeningTag → Reader OpeningTag
  | 0, tag, c => .ok (tag, c)
  | steps + 1, tag, c =>
    if c.rest.isEmpty then .ok (tag, c)
    else
      let spaced := c.startsWithSpace
      let c := c.skipSpaces
      match c.rest with
      | [] => .error .endOfText
      | '/' :: _ => do
        let ((), c) ← (c.advance 1).expect '>'
        return ({ tag with ending := .empty }, c)
      | '>' :: _ => .ok ({ tag with ending := .open }, c.advance 1)
      | ch :: _ =>
        if ¬ spaced then .error (.expectedKind "a whitespace" ch c.position)
        else do
          let (a, c) ← readAttribute c
          match ← declarationOf tag.declarations a with
          | some ds => readTagRest steps { tag with declarations := tag.declarations ++ ds } c
          | none => readTagRest steps { tag with attributes := tag.attributes ++ [a] } c

def readOpeningTag : Reader OpeningTag := fun c => do
  let (name, next) ← QualifiedName.read (c.advance 1)
  if name.qualifier = "xmlns" then
    throw (.declarationPrefixOnElement (c.advance 1).position)
  readTagRest next.rest.length ⟨name, c.position, [], [], .missing⟩ next

def readClosingTag : Reader QualifiedName := fun c => do
  let (name, next) ← QualifiedName.read (c.advance 2)
  let ((), next) ← next.skipSpaces.expect '>'
  return (name, next)

def readComment : Reader Unit := fun c => do
  let (text, next) ← (c.advance 4).runTo "-->"
  let ((), next) ← next.expectText "-->"
  if hasDoubleHyphen text then throw (.badComment c.position)
  return ((), next)
where
  /-- Two hyphens in a row, the last one possibly that of the end mark. -/
  hasDoubleHyphen : List Char → Bool
    | [] => false
    | ['-'] => true
    | '-' :: '-' :: _ => true
    | _ :: rest => hasDoubleHyphen rest

/-- A processing instruction from its `<` on. -/
def readInstruction : Reader Unit := fun c => do
  if c.startsWith "<?xml " then throw (.lateDeclaration c.position)
  let (_, next) ← (c.advance 2).name
  let (_, next) ← next.skipSpaces.runTo "?>"
  next.expectText "?>"

/-- A character data section from its `<` on. -/
def readSection : Reader Unit := fun c => do
  let (_, next) ← (c.advance 9).runTo "]]>"
  next.expectText "]]>"

/-- The text `mark` stands somewhere in `cs`. -/
def holds (mark : List Char) : List Char → Bool
  | [] => mark.isEmpty
  | ch :: cs => mark.isPrefixOf (ch :: cs) || holds mark cs

/-- Text up to the next tag. -/
def readText : Reader Unit := fun c => do
  let (text, next) ← c.run fun cs => cs.head? = some '<'
  if holds "]]>".toList text then throw (.sectionEndInText next.position)
  checkText text c.position
  return ((), next)

/-- White space, or the end of the declaration, or the end of the text. -/
def readDeclarationGap : Reader Unit := fun c =>
  match c.rest with
  | [] => .ok ((), c)
  | ch :: _ =>
    if isSpace ch then .ok ((), c.skipSpaces)
    else if c.startsWith "?>" then .ok ((), c)
    else .error (.expectedKind "a whitespace" ch c.position)

/-- A pair that the declaration may hold, if its name comes next. -/
def readOptionalPair (name : String) : Reader Bool := fun c =>
  if c.startsWith name then do
    let (_, c) ← readPair c
    return (true, c)
  else .ok (false, c)

/-- The XML declaration from its `<` on. -/
def readDeclaration : Reader Unit := fun c => do
  let ((), c) ← readDeclarationGap (c.advance 5)
  if ¬ c.startsWith "version" then throw (.expectedText "version" c.position)
  let (_, c) ← readPair c
  let ((), c) ← readDeclarationGap c
  let (encoded, c) ← readOptionalPair "encoding" c
  let ((), c) ← if encoded then readDeclarationGap c else pure ((), c)
  let (_, c) ← readOptionalPair "standalone" c
  c.skipSpaces.expectText "?>"

end SourceLint.Markup
