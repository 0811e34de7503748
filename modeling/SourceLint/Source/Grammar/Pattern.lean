import SourceLint.Source.Grammar.Type

/-! # Patterns

A pattern refers to a value by a path with a separator in it and by the bounds of a
range; a lone name binds. What else is kept of a pattern is the types, macros and
constants inside it.
-/

namespace SourceLint.Source

open Token Reader

variable {W : Name → Prop}

/-- The bar between alternatives comes next. -/
def isAlternative (ts : List (Token W)) : Bool :=
  isMark "|" ts && !isMark "||" ts && !isMark "|=" ts

def startsPathPattern (ts : List (Token W)) : Bool :=
  (isIdentifier ts && second (fun us => isMark "::" us || isMark "!" us || isGroup .brace us ||
      isGroup .parenthesis us || isMark ".." us) ts) ||
    (isWord "self" ts && second (isMark "::") ts) || isMark "::" ts || isMark "<" ts ||
    isAnyOf ["Self", "super", "crate"] ts

/-- Nothing that bounds a range comes next. -/
def endsRangePattern (ts : List (Token W)) : Bool :=
  ts.isEmpty || isMark "|" ts || isMark "=" ts || isColon ts || isMark "," ts || isMark ";" ts ||
    isWord "if" ts

/-- The dots of a range in a pattern, and whether they include the upper bound. -/
def rangeDots : Reader W Bool := do
  if ← markIf "..=" then return true
  else if ← markIf "..." then return true
  else
    mark ".."
    return false

namespace Grammar

variable (g : Grammar W)

/-- The node of a path that stands for a value. -/
def valuePath : Reader W (Node W) := do
  let path ← g.qualifiedPath true
  return .path path.last path.parts

def constBlock : Reader W (List (Node W)) := do
  word "const"
  g.valuedBlock

/-- A bound of a range pattern, if one comes next. -/
def rangeBound : Reader W (Option (List (Node W))) := do
  if ← peek endsRangePattern then return none
  else if ← peek isLiteral then
    literal
    return some []
  else if ← peek (fun ts => isPathStart ts || isMark "<" ts) then return some [← g.valuePath]
  else if ← peek (isWord "const") then return some (← g.constBlock)
  else failure

/-- The rest of a range pattern whose lower bound has been read. -/
def rangeTail (lower : List (Node W)) : Reader W (PatternTree W) := do
  let closed ← rangeDots
  match ← g.rangeBound with
  | some upper => return { parts := lower ++ upper }
  | none => if closed then failure else return { parts := lower, halfOpen := true }

/-- A range pattern without a lower bound, or the dots that stand for a rest. -/
def rangeWithoutLower : Reader W (PatternTree W) := do
  let closed ← rangeDots
  match ← g.rangeBound with
  | some upper => return { parts := upper, halfOpen := true }
  | none => if closed then failure else return { parts := [] }

/-- Patterns with bars between them, perhaps with one in front. -/
def alternatives : Reader W (PatternTree W) := do
  let leading ← markIf "|"
  let first ← g.pattern
  let more ← many isAlternative (do mark "|"; g.pattern)
  if leading || !more.isEmpty then
    return { parts := first.parts ++ more.flatMap (·.parts) }
  else return first

/-- The name of a field in a struct pattern, and whether a pattern must follow. -/
def fieldName : Reader W Bool := do
  if ← peek isIdentifier then
    discard anyWord
    return false
  else
    fieldIndex
    return true

def fieldPattern : Reader W (List (Node W)) := do
  let boxed ← wordIf "box"
  let byReference ← wordIf "ref"
  let isMutable ← wordIf "mut"
  if boxed || byReference || isMutable then
    discard identifier
    return []
  else
    let indexed ← fieldName
    if indexed || (← peek (isMark ":")) then
      mark ":"
      return (← g.alternatives).parts
    else return []

/-- The fields of a struct pattern, at most `steps` of them. -/
def fieldPatternsUpTo : Nat → Reader W (List (Node W))
  | 0 => return []
  | steps + 1 => do
    if ← peek List.isEmpty then return []
    let attributes ← g.outerAttributes
    if ← markIf ".." then return attributes.values
    let field ← g.fieldPattern
    if ← peek List.isEmpty then return attributes.values ++ field
    mark ","
    return attributes.values ++ field ++ (← fieldPatternsUpTo steps)

def patternList : Reader W (List (PatternTree W)) :=
  commaList g.alternatives

/-- What follows the path that a pattern starts with. -/
def pathPattern : Reader W (PatternTree W) := do
  let path ← g.qualifiedPath true
  if !path.qualified && path.bare && (← peek (fun ts => isMark "!" ts && !isMark "!=" ts)) then
    mark "!"
    return { parts := (← g.macroTail).1 }
  else if ← peek (isGroup .brace) then
    let fields ← inGroup .brace (do g.fieldPatternsUpTo ((← get).length + 1))
    return { parts := path.parts ++ fields }
  else if ← peek (isGroup .parenthesis) then
    let elements ← inGroup .parenthesis g.patternList
    return { parts := path.parts ++ elements.flatMap (·.parts) }
  else
    let value := [Node.path path.last path.parts]
    if ← peek (isMark "..") then g.rangeTail value
    else return { parts := value }

/-- A literal or a constant, which may be the lower bound of a range. -/
def literalPattern : Reader W (PatternTree W) := do
  match ← g.rangeBound with
  | some lower => if ← peek (isMark "..") then g.rangeTail lower else return { parts := lower }
  | none => failure

/-- A name that binds, perhaps what another pattern matches. -/
def bindingPattern : Reader W (PatternTree W) := do
  discard (wordIf "ref")
  discard (wordIf "mut")
  if ← peek (isWord "self") then discard anyWord else discard identifier
  if ← markIf "@" then return { parts := (← g.pattern).parts }
  else return { parts := [] }

/-- Elements of a slice, none of which may be a range without one of its ends. -/
def slicePattern : Reader W (PatternTree W) := do
  let elements ← inGroup .bracket g.patternList
  if elements.any (·.halfOpen) then failure
  else return { parts := elements.flatMap (·.parts) }

def patternBody : Reader W (PatternTree W) := do
  if ← peek startsPathPattern then g.pathPattern
  else if ← wordIf "_" then return { parts := [] }
  else if ← wordIf "box" then
    discard g.pattern
    return { parts := [] }
  else if ← peek (fun ts => isMark "-" ts || isLiteral ts || isWord "const" ts) then
    g.literalPattern
  else if ← peek (fun ts => isAnyOf ["ref", "mut", "self"] ts || isIdentifier ts) then
    g.bindingPattern
  else if ← markIf "&" then
    discard (wordIf "mut")
    return { parts := (← g.pattern).parts }
  else if ← peek (isGroup .parenthesis) then
    let elements ← inGroup .parenthesis g.patternList
    return { parts := elements.flatMap (·.parts) }
  else if ← peek (isGroup .bracket) then g.slicePattern
  else if ← peek (fun ts => isMark ".." ts && !isMark "..." ts) then g.rangeWithoutLower
  else failure

end Grammar

end SourceLint.Source
