import SourceLint.Source.Grammar.Category

/-! # Attributes and blocks

An attribute has a path and either tokens of its own, which nobody looks into, or a
value that is an expression. Attributes stand before what they are about or, behind
an exclamation mark, at the start of what encloses them.
-/

namespace SourceLint.Source

open Token Reader

variable {W : Name → Prop}

/-- A name of a path without arguments comes next. -/
def isPathWord (ts : List (Token W)) : Bool :=
  isIdentifier ts || isAnyOf ["super", "self", "Self", "crate"] ts

/-- One name of a path without arguments. -/
def pathWord : Reader W (Word W) := do
  need isPathWord
  anyWord

/-- The path of these names. -/
def PathTree.ofNames (absolute : Bool) (first : Word W) : List (Word W) → PathTree W
  | [] => { absolute, last := first }
  | second :: rest =>
    let tail := ofNames absolute second rest
    { tail with leading := first :: tail.leading }

/-- A path without arguments. -/
def plainPath : Reader W (PathTree W) := do
  let absolute ← markIf "::"
  let first ← pathWord
  let more ← many (isMark "::") (do mark "::"; pathWord)
  return .ofNames absolute first more

/-- An attribute comes next that is about what encloses it. -/
def isInner (ts : List (Token W)) : Bool :=
  isMark "#" ts && second (isMark "!") ts

namespace Grammar

variable (g : Grammar W)

/-- The path and the value of an attribute. -/
def attributeContent : Reader W (PathTree W × List (Node W)) := do
  let path ← if ← peek (isWord "unsafe") then (return { last := ← anyWord }) else plainPath
  if ← peek isAnyGroup then
    discard anyGroup
    return (path, [])
  else if ← peek (fun ts => isMark "=" ts && !isMark "==" ts && !isMark "=>" ts) then
    mark "="
    if ← peek (fun ts => isMark "#" ts && second (isGroup .bracket) ts) then failure
    return (path, [(← g.expression true).node])
  else return (path, [])

/-- An attribute after its marks, which `spelled` spells. -/
def attributeBody (spelled : String) : Reader W (Attributes W) := do
  let text := spelled ++ compactAll ((← get).take 1)
  let (path, values) ← inGroup .bracket g.attributeContent
  let names := (path.leading ++ [path.last]).map (·.text)
  return ⟨[⟨path.absolute, names, text⟩], values⟩

/-- An attribute of what follows it. -/
def outerAttribute : Reader W (Attributes W) := do
  mark "#"
  g.attributeBody "#"

/-- An attribute of what encloses it. -/
def innerAttribute : Reader W (Attributes W) := do
  mark "#"
  mark "!"
  g.attributeBody "#!"

/-- The attributes of what follows. -/
def outerAttributes : Reader W (Attributes W) := do
  return (← many (isMark "#") g.outerAttribute).foldl (· ++ ·) {}

/-- The attributes of what encloses them. -/
def innerAttributes : Reader W (Attributes W) := do
  return (← many isInner g.innerAttribute).foldl (· ++ ·) {}

/-- The statements of a block that has no attributes of its own. -/
def block : Reader W (List (Node W)) :=
  inGroup .brace g.statements

/-- A block with the attributes at its start. -/
def attributedBlock : Reader W (Attributes W × List (Node W)) :=
  inGroup .brace do
    let attributes ← g.innerAttributes
    return (attributes, ← g.statements)

/-- A block with the values of the attributes at its start. -/
def valuedBlock : Reader W (List (Node W)) := do
  let (attributes, statements) ← g.attributedBlock
  return attributes.values ++ statements

/-- The arguments of a macro, if its tokens are expressions with commas between them. -/
def macroArguments (tokens : List (Token W)) : List (Node W) :=
  match commaList (g.expression true) tokens with
  | some (arguments, []) => arguments.map (·.node)
  | _ => []

/-- A macro after its exclamation mark, and whether its tokens stand in braces. -/
def macroTail : Reader W (List (Node W) × Bool) := do
  let (d, tokens) ← anyGroup
  return (g.macroArguments tokens, d = .brace)

end Grammar

end SourceLint.Source
