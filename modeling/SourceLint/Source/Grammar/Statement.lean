import SourceLint.Source.Grammar.Expression

/-! # Statements

A statement binds, is an item, or is an expression. An expression that its own brace
ends is a statement by itself; any other needs a semicolon unless it comes last.
-/

namespace SourceLint.Source

open Token Reader

variable {W : Name → Prop}

/-- How a statement that starts with the path of a macro goes on. -/
inductive MacroStart where
  /-- A macro that defines a name. -/
  | item
  /-- A macro whose braces end the statement. -/
  | statement
  /-- Anything else. -/
  | other
  deriving Repr, DecidableEq

/-- How a statement that starts here goes on, as far as macros are concerned. -/
def macroStart (ts : List (Token W)) : MacroStart :=
  match plainPath ts with
  | some (_, rest) =>
    if !isMark "!" rest then .other
    else if second (fun us => isIdentifier us || isWord "try" us) rest then .item
    else if second (isGroup .brace) rest && !third (fun us => isDot us || isMark "?" us) rest then
      .statement
    else .other
  | none => .other

/-- A static item comes next, and not a closure. -/
def startsStatic (ts : List (Token W)) : Bool :=
  isWord "static" ts &&
    (second (isWord "mut") ts || second isIdentifier ts)

/-- A constant item comes next, and not a constant block or a closure. -/
def startsConst (ts : List (Token W)) : Bool :=
  isWord "const" ts &&
    !(second (fun us => isGroup .brace us || isWord "static" us || isWord "move" us ||
        isMark "|" us) ts ||
      (second (isWord "async") ts && !third (isAnyOf ["unsafe", "extern", "fn"]) ts))

def startsItem (ts : List (Token W)) : Bool :=
  isAnyOf ["pub", "extern", "use", "fn", "mod", "type", "struct", "enum", "trait", "impl",
      "macro"] ts ||
    (isWord "crate" ts && !second (isMark "::") ts) || startsStatic ts || startsConst ts ||
    (isWord "unsafe" ts && !second (isGroup .brace) ts) ||
    (isWord "async" ts && second (isAnyOf ["unsafe", "extern", "fn"]) ts) ||
    (isWord "union" ts && second isIdentifier ts) ||
    (isWord "auto" ts && second (isWord "trait") ts) ||
    (isWord "default" ts && second (isAnyOf ["unsafe", "impl"]) ts)

/-- What was read between two places ends with a brace. -/
def endsWithBrace (before after : List (Token W)) : Bool :=
  match (before.take (before.length - after.length)).getLast? with
  | some t => isGroup .brace [t]
  | none => false

/-- A statement that has been read. -/
structure Statement (W : Name → Prop) where
  node : Node W
  /-- It must come last, since a semicolon is missing. -/
  unfinished : Bool := false

namespace Grammar

variable (g : Grammar W)

/-- A macro whose braces end the statement. -/
def macroStatement (attributes : Attributes W) : Reader W (Statement W) := do
  discard plainPath
  mark "!"
  let (arguments, _) ← g.macroTail
  discard (markIf ";")
  return { node := .group (attributes.values ++ arguments) }

/-- The value of a binding, and the block that runs when it does not match. A value that
ends with a brace cannot have such a block. -/
def bindingValue : Reader W (List (Node W)) := do
  let before ← get
  let value ← g.expression true
  let after ← get
  if !endsWithBrace before after && isWord "else" after then
    word "else"
    return value.node :: (← g.block)
  else return [value.node]

def bindingStatement (attributes : Attributes W) : Reader W (Statement W) := do
  word "let"
  let pattern ← g.pattern
  let type ← if ← markIf ":" then (return (← g.type true).parts) else pure []
  let value ← if ← markIf "=" then g.bindingValue else pure []
  mark ";"
  return { node := .group (attributes.values ++ pattern.parts ++ type ++ value) }

def expressionStatement (attributes : Attributes W) : Reader W (Statement W) := do
  let e ← g.eager
  let closed ← markIf ";"
  let complete := e.shape = .block || e.shape = .invocation true
  return ⟨e.node.attach attributes.values, !closed && !complete⟩

def statement : Reader W (Statement W) := do
  let attributes ← g.outerAttributes
  let ts ← get
  match macroStart ts with
  | .statement => g.macroStatement attributes
  | .item => return { node := ← g.item attributes }
  | .other =>
    if isWord "let" ts then g.bindingStatement attributes
    else if startsItem ts then return { node := ← g.item attributes }
    else g.expressionStatement attributes

/-- At most `steps` statements, up to the end. -/
def statementsUpTo : Nat → Reader W (List (Node W))
  | 0 => return []
  | steps + 1 => do
    discard (many (isMark ";") (mark ";"))
    if ← peek List.isEmpty then return []
    let s ← g.statement
    if s.unfinished && !(← peek List.isEmpty) then failure
    return s.node :: (← statementsUpTo steps)

/-- The statements of a block. -/
def statementsBody : Reader W (List (Node W)) := do
  g.statementsUpTo ((← get).length + 1)

end Grammar

end SourceLint.Source
