import SourceLint.Markup.Tag

/-! # Reading a document

A document is an optional byte order mark and declaration, then one element
with comments and processing instructions around it. The content of the open
elements is read piece by piece; each piece takes at least one character, so the
number of characters bounds the number of steps.
-/

namespace SourceLint.Markup

/-- An element whose closing tag is still to come. -/
structure OpenElement where
  name : QualifiedName
  attributes : List Attribute
  position : Position
  /-- Its children so far, the last one first. -/
  children : List Element
  /-- The namespaces that prefixes stand for inside it. -/
  scope : List Declaration

namespace OpenElement

/-- The element with the children it has. -/
def close (e : OpenElement) : Element :=
  ⟨e.name.local, e.attributes, e.children.reverse, some e.position⟩

/-- The open element with one more child. -/
def add (e : OpenElement) (child : Element) : OpenElement :=
  { e with children := child :: e.children }

end OpenElement

/-- The namespace of a prefix in scope; no prefix may have none. -/
def resolve (scope : List Declaration) (qualifier : String) (at_ : Position) :
    Except Error (Option String) :=
  if qualifier = "" then
    .ok ((scope.find? (·.qualifier = none)).map (·.namespaceName))
  else
    match scope.find? (·.qualifier = some qualifier) with
    | some d => .ok (some d.namespaceName)
    | none => .error (.unknownNamespace qualifier at_)

/-- The namespace of an attribute: none without a prefix. -/
def attributeNamespace (scope : List Declaration) (a : RawAttribute) :
    Except Error (Option String) :=
  if a.name.qualifier = "xml" then .ok (some xmlNamespace)
  else if a.name.qualifier = "" then .ok none
  else resolve scope a.name.qualifier a.position

/-- The attributes of a tag, no two of one name in one namespace; `seen` are the
names before these. -/
def resolveAttributes (scope : List Declaration) (seen : List (Option String × String)) :
    List RawAttribute → Except Error (List Attribute)
  | [] => .ok []
  | a :: rest => do
    let key := (← attributeNamespace scope a, a.name.local)
    if key ∈ seen then throw (.attributeTwice a.name.local a.position)
    let others ← resolveAttributes scope (key :: seen) rest
    return ⟨a.name.local, a.value⟩ :: others

/-- The element that an opening tag opens inside `scope`. -/
def openElement (scope : List Declaration) (tag : OpeningTag) : Except Error OpenElement := do
  let inner := tag.declarations ++ scope
  let attributes ← resolveAttributes inner [] tag.attributes
  let _ ← resolve inner tag.name.qualifier (tag.position.next '<')
  return ⟨tag.name, attributes, tag.position, [], inner⟩

/-- The rest of the content of `top` inside `outer`, innermost first: the root
element once it is closed, or its cause of failure. -/
def readContent : Nat → OpenElement → List OpenElement → Reader Element
  | 0, _, _, _ => .error .unclosedRoot
  | steps + 1, top, outer, c =>
    match c.rest with
    | [] => .error .unclosedRoot
    | ['<'] => .error (.unknownToken c.position)
    | '<' :: '!' :: _ =>
      if c.startsWith "<!--" then do
        let ((), c) ← readComment c
        readContent steps top outer c
      else if c.startsWith "<![CDATA[" then do
        let ((), c) ← readSection c
        readContent steps top outer c
      else .error (.unknownToken c.position)
    | '<' :: '?' :: _ => do
      let ((), c) ← readInstruction c
      readContent steps top outer c
    | '<' :: '/' :: _ => do
      let (name, next) ← readClosingTag c
      if name ≠ top.name then throw (.closeMismatch top.name.render name.render c.position)
      match outer with
      | [] => return (top.close, next)
      | parent :: outer => readContent steps (parent.add top.close) outer next
    | '<' :: _ => do
      let (tag, c) ← readOpeningTag c
      match tag.ending with
      | .missing => throw .unclosedRoot
      | .empty =>
        let e ← openElement top.scope tag
        readContent steps (top.add e.close) outer c
      | .open =>
        let e ← openElement top.scope tag
        readContent steps e (top :: outer) c
    | _ => do
      let ((), c) ← readText c
      readContent steps top outer c

/-- Comments, processing instructions and white space outside the root element. -/
def readMisc : Nat → Reader Unit
  | 0, c => .ok ((), c)
  | steps + 1, c =>
    let c := c.skipSpaces
    if c.startsWith "<!--" then do
      let ((), c) ← readComment c
      readMisc steps c
    else if c.startsWith "<?" then do
      let ((), c) ← readInstruction c
      readMisc steps c
    else .ok ((), c)

/-- The root element from its `<` on, or nothing when the text ends inside its tag. -/
def readRoot : Reader (Option Element) := fun c => do
  let (tag, c) ← readOpeningTag c
  match tag.ending with
  | .missing => return (none, c)
  | .empty =>
    let e ← openElement [] tag
    return (some e.close, c)
  | .open =>
    let e ← openElement [] tag
    let (root, c) ← readContent c.rest.length e [] c
    return (some root, c)

/-- The root element, if there is one, and what surrounds it. -/
def readDocument : Reader (Option Element) := fun c => do
  let ((), c) ← if c.startsWith "<?xml " then readDeclaration c else pure ((), c)
  let ((), c) ← readMisc c.rest.length c
  if c.startsWith "<!DOCTYPE" then throw .doctype
  let (root, c) ← if c.startsWith "<" then readRoot c else pure (none, c)
  let ((), c) ← readMisc c.rest.length c
  if ¬ c.rest.isEmpty then throw (.unknownToken c.position)
  return (root, c)

/-- The element that a text spells. -/
def parse (text : String) : Except Error Element := do
  let c := Cursor.ofChars text.toList
  let c := if c.startsWith "\ufeff" then c.advance 1 else c
  match ← readDocument c with
  | (some root, _) => return root
  | (none, _) => throw .noRoot

end SourceLint.Markup
