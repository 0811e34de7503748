import SourceLint.Source.Grammar.Statement

/-! # Items

Definitions, imports and macros at the level of a file, a module or a block, and what
implementations, traits and foreign blocks hold. Forms that are grammatical but have no
meaning are accepted without being looked into.
-/

namespace SourceLint.Source

open Token Reader

variable {W : Name → Prop}

/-- What a visibility is restricted to, in its parentheses. -/
def restriction? : List (Token W) → Option (Reader W Unit)
  | .group .parenthesis inside :: _ =>
    if isAnyOf ["crate", "self", "super"] inside && inside.length = 1 then
      some (discard anyGroup)
    else if isWord "in" inside then
      some (inGroup .parenthesis (do word "in"; discard plainPath))
    else none
  | _ => none

/-- A visibility, and whether there is one. -/
def visibility : Reader W Bool := do
  if ← wordIf "pub" then
    match restriction? (← get) with
    | some read => read
    | none => pure ()
    return true
  else return false

/-- The tokens without a word in front, if it is the one given. -/
def withoutWord (w : String) (ts : List (Token W)) : List (Token W) :=
  if isWord w ts then ts.drop 1 else ts

/-- The tokens without a linkage in front. -/
def withoutLinkage (ts : List (Token W)) : List (Token W) :=
  if isWord "extern" ts then
    if isString (ts.drop 1) then ts.drop 2 else ts.drop 1
  else ts

/-- The head of a function comes next, where `safe` counts as a qualifier or not. -/
def startsFunction (safe : Bool) (ts : List (Token W)) : Bool :=
  let us := withoutWord "async" (withoutWord "const" ts)
  let us := if safe && isWord "safe" us then us.drop 1 else withoutWord "unsafe" us
  isWord "fn" (withoutLinkage us)

def startsMacroItem (ts : List (Token W)) : Bool :=
  isIdentifier ts || isAnyOf ["self", "super", "crate"] ts || isMark "::" ts

/-- The name of a constant, which may be an underscore. -/
def constName : Reader W Unit := do
  need fun ts => isIdentifier ts || isWord "_" ts
  discard anyWord

namespace Grammar

variable (g : Grammar W)

def receiver : Reader W (List (Node W)) := do
  let byReference ← markIf "&"
  if byReference then lifetimeIf
  discard (wordIf "mut")
  word "self"
  if !byReference && (← markIf ":") then return (← g.type true).parts
  else return []

/-- The pattern of a parameter up to its colon, when there is no type in its place. -/
def parameterPattern : Reader W (List (Node W)) := do
  if ← peek (fun ts => isIdentifier ts && second (isMark "<") ts) then return []
  else
    let pattern ← g.pattern
    mark ":"
    return pattern.parts

/-- At most `steps` parameters of a function; only the first may be a receiver. -/
def parametersUpTo (first : Bool) : Nat → Reader W (List (Node W))
  | 0 => return []
  | steps + 1 => do
    if ← peek List.isEmpty then return []
    let attributes ← g.outerAttributes
    match ← if ← peek (isMark "...") then pure none else attempt g.receiver with
    | some self =>
      if !first then failure
      if ← peek List.isEmpty then return attributes.values ++ self
      mark ","
      return attributes.values ++ self ++ (← parametersUpTo false steps)
    | none =>
      let pattern ← if ← peek (isMark "...") then pure [] else g.parameterPattern
      if ← markIf "..." then
        discard (markIf ",")
        return attributes.values ++ pattern
      else
        let type ← g.type true
        let parameter := attributes.values ++ pattern ++ type.parts
        if ← peek List.isEmpty then return parameter
        mark ","
        return parameter ++ (← parametersUpTo false steps)

/-- The head of a function: its name, what its signature holds, and whether it is marked
as safe. -/
def signature (safe : Bool) : Reader W (Word W × List (Node W) × Bool) := do
  discard (wordIf "const")
  discard (wordIf "async")
  let isSafe ← if safe then wordIf "safe" else pure false
  if !isSafe then discard (wordIf "unsafe")
  if ← wordIf "extern" then stringIf
  word "fn"
  let name ← identifier
  let (parameters, _) ← g.generics
  let inputs ← inGroup .parenthesis (do g.parametersUpTo true ((← get).length + 1))
  let output ← g.returnType true
  let conditions ← g.conditions
  return (name, parameters ++ conditions.getD [] ++ inputs ++ output, isSafe)

/-- A macro in place of an item. -/
def macroItem (attributes : Attributes W) : Reader W (Node W) := do
  discard plainPath
  mark "!"
  if ← peek (fun ts => isIdentifier ts || isWord "try" ts) then discard anyWord
  let (arguments, braced) ← g.macroTail
  if !braced then mark ";"
  return .item .other attributes.marks (attributes.values ++ arguments)

/-- A macro in a trait, an implementation or a foreign block. -/
def memberMacro (attributes : Attributes W) : Reader W (Node W) := do
  discard plainPath
  mark "!"
  let (arguments, braced) ← g.macroTail
  if !braced then mark ";"
  return .item .other attributes.marks (attributes.values ++ arguments)

def functionItem (attributes : Attributes W) (visible : Bool) : Reader W (Node W) := do
  let (name, head, _) ← g.signature false
  if ← markIf ";" then return .unread
  else
    let (inner, body) ← g.attributedBlock
    let all := attributes ++ inner
    return .item (.function name visible) all.marks (all.values ++ head ++ body)

/-- A definition of a type by another one, with bounds and conditions around it. -/
structure Alias (W : Name → Prop) where
  parts : List (Node W)
  bounded : Bool
  defined : Bool

/-- A type alias after its visibility, with conditions before the definition, after it,
or at either place. -/
def «alias» (before after : Bool) : Reader W (Alias W) := do
  word "type"
  discard identifier
  let (parameters, _) ← g.generics
  let bounded ← markIf ":"
  let stop := fun ts => isWord "where" ts || isMark "=" ts || isMark ";" ts
  let bounds ← if bounded then separated "+" stop (g.bound false true) else pure []
  let early ← if before then g.conditions else pure none
  let type ← if ← markIf "=" then (return some (← g.type true).parts) else pure none
  let late ← if after && early.isNone then g.conditions else pure none
  mark ";"
  let conditions := (early <|> late).getD []
  return ⟨parameters ++ conditions ++ bounds.flatMap (·.parts) ++ type.getD [], bounded,
    type.isSome⟩

def aliasItem (attributes : Attributes W) : Reader W (Node W) := do
  let a ← g.alias true false
  if a.bounded || !a.defined then return .unread
  else return .item .other attributes.marks (attributes.values ++ a.parts)

def staticItem (attributes : Attributes W) : Reader W (Node W) := do
  word "static"
  discard (wordIf "mut")
  discard identifier
  if ← markIf "=" then
    discard (g.expression true)
    mark ";"
    return .unread
  else
    mark ":"
    let type ← g.type true
    if ← markIf ";" then return .unread
    else
      mark "="
      let value ← g.expression true
      mark ";"
      return .item .other attributes.marks (attributes.values ++ type.parts ++ [value.node])

/-- A constant after its word: what it holds, whether it has a value, and whether it is
generic. -/
def constant : Reader W (List (Node W) × Bool × Bool) := do
  constName
  let (parameters, bracketed) ← g.generics
  mark ":"
  let type ← g.type true
  let value ← if ← markIf "=" then (return [(← g.expression true).node]) else pure []
  let conditions ← g.conditions
  mark ";"
  return (parameters ++ type.parts ++ value, !value.isEmpty, bracketed || conditions.isSome)

def constItem (attributes : Attributes W) : Reader W (Node W) := do
  word "const"
  let (parts, valued, generic) ← g.constant
  if valued && !generic then
    return .item .other attributes.marks (attributes.values ++ parts)
  else return .unread

def crateItem (attributes : Attributes W) : Reader W (Node W) := do
  word "extern"
  word "crate"
  if ← peek (isWord "self") then discard anyWord else discard identifier
  if ← wordIf "as" then
    if ← peek (isWord "_") then discard anyWord else discard identifier
  mark ";"
  return .item .other attributes.marks attributes.values

/-- The tree of an import. With a separator in front of a path inside its braces it is
accepted without being looked into. -/
def importsBody (root : Bool) : Reader W (Option (List (Node W))) := do
  if ← peek (fun ts => isIdentifier ts || isAnyOf ["self", "super", "crate", "try"] ts) then
    let name ← anyWord
    if ← markIf "::" then
      match ← g.imports false with
      | some nodes => return some nodes
      | none => failure
    else if ← wordIf "as" then
      if ← peek (isWord "_") then discard anyWord else discard identifier
      return some [.imported name]
    else return some [.imported name]
  else if ← markIf "*" then return some []
  else
    let branches ← inGroup .brace (commaList (do
      let rooted ← if root then markIf "::" else pure false
      let nodes ← g.imports (root && !rooted)
      return if rooted then none else nodes))
    return (branches.mapM id).map List.flatten

def importItem (attributes : Attributes W) : Reader W (Node W) := do
  word "use"
  let rooted ← markIf "::"
  match ← g.imports (!rooted) with
  | some nodes =>
    mark ";"
    return .item .other attributes.marks (attributes.values ++ nodes)
  | none =>
    mark ";"
    return .unread

def itemList : Reader W (List (Node W)) :=
  all (do g.item (← g.outerAttributes))

def moduleItem (attributes : Attributes W) : Reader W (Node W) := do
  discard (wordIf "unsafe")
  word "mod"
  if ← peek (isWord "try") then discard anyWord else discard identifier
  if ← markIf ";" then return .item .module attributes.marks attributes.values
  else
    let (inner, items) ← inGroup .brace do
      let inner ← g.innerAttributes
      return (inner, ← g.itemList)
    let all := attributes ++ inner
    return .item .module all.marks (all.values ++ items)

def tupleField : Reader W (List (Node W)) := do
  let attributes ← g.outerAttributes
  discard visibility
  return attributes.values ++ (← g.type true).parts

def tupleFields : Reader W (List (Node W)) := do
  return (← inGroup .parenthesis (commaList g.tupleField)).flatten

/-- A named field, where an underscore may stand for the fields of another struct. -/
def namedField : Reader W (List (Node W)) := do
  let attributes ← g.outerAttributes
  discard visibility
  let unnamed ← wordIf "_"
  if !unnamed then discard identifier
  mark ":"
  if unnamed && (← peek (fun ts =>
      isWord "struct" ts || (isWord "union" ts && second (isGroup .brace) ts))) then
    discard anyWord
    discard g.fields
    return attributes.values
  else return attributes.values ++ (← g.type true).parts

def fieldsBody : Reader W (List (Node W)) := do
  return (← inGroup .brace (commaList g.namedField)).flatten

def structItem (attributes : Attributes W) : Reader W (Node W) := do
  word "struct"
  discard identifier
  let (parameters, _) ← g.generics
  let early ← g.conditions
  let (fields, late) ←
    if early.isNone && (← peek (isGroup .parenthesis)) then do
      let fields ← g.tupleFields
      let late ← g.conditions
      mark ";"
      pure (fields, late)
    else if ← peek (isGroup .brace) then pure (← g.fields, none)
    else do
      mark ";"
      pure ([], none)
  return .item .other attributes.marks
    (attributes.values ++ parameters ++ (early <|> late).getD [] ++ fields)

def variant : Reader W (List (Node W)) := do
  let attributes ← g.outerAttributes
  discard visibility
  discard identifier
  let fields ←
    if ← peek (isGroup .brace) then g.fields
    else if ← peek (isGroup .parenthesis) then g.tupleFields
    else pure []
  let value ← if ← markIf "=" then (return [(← g.expression true).node]) else pure []
  return attributes.values ++ fields ++ value

def enumItem (attributes : Attributes W) : Reader W (Node W) := do
  word "enum"
  discard identifier
  let (parameters, _) ← g.generics
  let conditions ← g.conditions
  let variants ← inGroup .brace (commaList g.variant)
  return .item .other attributes.marks
    (attributes.values ++ parameters ++ conditions.getD [] ++ variants.flatten)

def unionItem (attributes : Attributes W) : Reader W (Node W) := do
  word "union"
  discard identifier
  let (parameters, _) ← g.generics
  let conditions ← g.conditions
  let fields ← g.fields
  return .item .other attributes.marks
    (attributes.values ++ parameters ++ conditions.getD [] ++ fields)

/-- A macro of the second kind, which is not looked into. -/
def secondMacro : Reader W (Node W) := do
  word "macro"
  discard identifier
  if ← peek (isGroup .parenthesis) then discard anyGroup
  inGroup .brace (discard rest)
  return .unread

def traitConst (attributes : Attributes W) : Reader W (Node W) := do
  word "const"
  let (parts, _, generic) ← g.constant
  if generic then return .unread
  else return .item .other attributes.marks (attributes.values ++ parts)

/-- A function of a trait, with a body or without. -/
def traitFunction (attributes : Attributes W) : Reader W (Node W) := do
  let (_, head, _) ← g.signature false
  if ← markIf ";" then return .item .other attributes.marks (attributes.values ++ head)
  else
    let (inner, body) ← g.attributedBlock
    let all := attributes ++ inner
    return .item .other all.marks (all.values ++ head ++ body)

def traitType (attributes : Attributes W) : Reader W (Node W) := do
  let a ← g.alias false true
  return .item .other attributes.marks (attributes.values ++ a.parts)

/-- What a trait holds. A visibility or a mark as default is accepted only. -/
def traitMember : Reader W (Node W) := do
  let attributes ← g.outerAttributes
  let visible ← visibility
  let isDefault ← wordIf "default"
  let ts ← get
  let node ←
    if startsFunction false ts then g.traitFunction attributes
    else if isWord "const" ts then g.traitConst attributes
    else if isWord "type" ts then g.traitType attributes
    else if !visible && !isDefault && startsMacroItem ts then g.memberMacro attributes
    else failure
  return if visible || isDefault then .unread else node

/-- A trait after its visibility and its qualifiers; `aliasing` says that it may be an
alias. -/
def traitItem (attributes : Attributes W) (aliasing : Bool) : Reader W (Node W) := do
  word "trait"
  discard identifier
  let (parameters, _) ← g.generics
  if aliasing && (← peek (isMark "=")) then
    mark "="
    let stop := fun ts => isWord "where" ts || isMark ";" ts
    let bounds ← separated "+" stop (g.bound false true)
    let conditions ← g.conditions
    mark ";"
    return .item .other attributes.marks
      (attributes.values ++ parameters ++ conditions.getD [] ++ bounds.flatMap (·.parts))
  else
    let stop := fun ts => isWord "where" ts || isGroup .brace ts
    let bounds ← if ← markIf ":" then separated "+" stop (g.bound false true) else pure []
    let conditions ← g.conditions
    let (inner, members) ← inGroup .brace do
      let inner ← g.innerAttributes
      return (inner, ← all g.traitMember)
    let all := attributes ++ inner
    return .item .other all.marks
      (all.values ++ parameters ++ conditions.getD [] ++ bounds.flatMap (·.parts) ++ members)

def method (attributes : Attributes W) (visible : Bool) : Reader W (Node W) := do
  let (name, head, _) ← g.signature false
  if ← markIf ";" then return .unread
  else
    let (inner, body) ← g.attributedBlock
    let all := attributes ++ inner
    return .item (.method name visible) all.marks (all.values ++ head ++ body)

def implementedType (attributes : Attributes W) : Reader W (Node W) := do
  let a ← g.alias false true
  if a.bounded || !a.defined then return .unread
  else return .item .other attributes.marks (attributes.values ++ a.parts)

def implementationMember : Reader W (Node W) := do
  let attributes ← g.outerAttributes
  let visible ← visibility
  let isDefault ← peek fun ts => isWord "default" ts && !second (isMark "!") ts
  if isDefault then word "default"
  let ts ← get
  if startsFunction false ts then g.method attributes visible
  else if isWord "const" ts then g.constItem attributes
  else if isWord "type" ts then g.implementedType attributes
  else if !visible && !isDefault && startsMacroItem ts then g.memberMacro attributes
  else failure

/-- An implementation after its visibility. One with a visibility, with `const`, or of
something that is no trait path is accepted only. -/
def implementation (attributes : Attributes W) (visible : Bool) : Reader W (Node W) := do
  discard (wordIf "default")
  discard (wordIf "unsafe")
  word "impl"
  let (parameters, _) ← if ← peek startsGenerics then g.generics else pure ([], false)
  let isConst ← peek fun ts =>
    isWord "const" ts || (isMark "?" ts && second (isWord "const") ts)
  if isConst then
    discard (markIf "?")
    word "const"
  let negative ← peek fun ts => isMark "!" ts && !second (isGroup .brace) ts
  if negative then mark "!"
  let first ← g.type true
  let second ← if ← wordIf "for" then (return some (← g.type true)) else pure none
  if negative && second.isNone then failure
  let conditions ← g.conditions
  let (inner, members) ← inGroup .brace do
    let inner ← g.innerAttributes
    return (inner, ← all g.implementationMember)
  let all := attributes ++ inner
  let ofPath := first.shape = .name || first.shape = .path
  if visible || isConst || (second.isSome && !ofPath) then return .unread
  else
    return .item (.implementation second.isSome) all.marks
      (all.values ++ parameters ++ conditions.getD [] ++ first.parts ++
        (second.map (·.parts)).getD [] ++ members)

/-- A function of a foreign block. One with a body or a mark as safe is accepted only. -/
def foreignFunction (attributes : Attributes W) : Reader W (Node W) := do
  let (_, head, safe) ← g.signature true
  if ← peek (isGroup .brace) then
    discard g.attributedBlock
    return .unread
  else
    mark ";"
    if safe then return .unread
    else return .item .other attributes.marks (attributes.values ++ head)

/-- A static of a foreign block. One with a value or a qualifier is accepted only. -/
def foreignStatic (attributes : Attributes W) : Reader W (Node W) := do
  let isUnsafe ← wordIf "unsafe"
  let safe ← if isUnsafe then pure false else wordIf "safe"
  word "static"
  discard (wordIf "mut")
  discard identifier
  mark ":"
  let type ← g.type true
  let valued ← markIf "="
  if valued then discard (g.expression true)
  mark ";"
  if isUnsafe || safe || valued then return .unread
  else return .item .other attributes.marks (attributes.values ++ type.parts)

def foreignType (attributes : Attributes W) : Reader W (Node W) := do
  let a ← g.alias true true
  if a.bounded || a.defined then return .unread
  else return .item .other attributes.marks (attributes.values ++ a.parts)

def foreignMember : Reader W (Node W) := do
  let attributes ← g.outerAttributes
  let visible ← visibility
  let ts ← get
  if startsFunction true ts then g.foreignFunction attributes
  else if isWord "static" ts ||
      (isAnyOf ["unsafe", "safe"] ts && second (isWord "static") ts) then
    g.foreignStatic attributes
  else if isWord "type" ts then g.foreignType attributes
  else if !visible && startsMacroItem ts then g.memberMacro attributes
  else failure

def foreignItem (attributes : Attributes W) : Reader W (Node W) := do
  discard (wordIf "unsafe")
  word "extern"
  stringIf
  let (inner, members) ← inGroup .brace do
    let inner ← g.innerAttributes
    return (inner, ← all g.foreignMember)
  let all := attributes ++ inner
  return .item .other all.marks (all.values ++ members)

/-- An item that starts with `unsafe`, other than a function. -/
def unsafeItem (attributes : Attributes W) (visible : Bool) : Reader W (Node W) := do
  let after := (← get).drop 1
  if isWord "trait" after || (isWord "auto" after && second (isWord "trait") after) then
    word "unsafe"
    discard (wordIf "auto")
    g.traitItem attributes false
  else if isWord "impl" after then g.implementation attributes visible
  else if isWord "extern" after && !visible then g.foreignItem attributes
  else if isWord "mod" after then g.moduleItem attributes
  else failure

/-- An item that starts with `extern`, other than a function. -/
def externItem (attributes : Attributes W) (visible : Bool) : Reader W (Node W) := do
  if (← get).drop 1 |> isWord "crate" then crateItem attributes
  else if visible then failure
  else g.foreignItem attributes

/-- An item after its attributes. -/
def itemBody (attributes : Attributes W) : Reader W (Node W) := do
  let visible ← visibility
  let ts ← get
  if startsFunction false ts then g.functionItem attributes visible
  else if isWord "extern" ts then g.externItem attributes visible
  else if isWord "use" ts then g.importItem attributes
  else if isWord "static" ts then g.staticItem attributes
  else if isWord "const" ts then g.constItem attributes
  else if isWord "unsafe" ts then g.unsafeItem attributes visible
  else if isWord "mod" ts then g.moduleItem attributes
  else if isWord "type" ts then g.aliasItem attributes
  else if isWord "struct" ts then g.structItem attributes
  else if isWord "enum" ts then g.enumItem attributes
  else if isWord "union" ts && second isIdentifier ts then g.unionItem attributes
  else if isWord "trait" ts then g.traitItem attributes true
  else if isWord "auto" ts && second (isWord "trait") ts then
    word "auto"
    g.traitItem attributes false
  else if isWord "impl" ts || (isWord "default" ts && !second (isMark "!") ts) then
    g.implementation attributes visible
  else if isWord "macro" ts then secondMacro
  else if !visible && startsMacroItem ts then g.macroItem attributes
  else failure

end Grammar

end SourceLint.Source
