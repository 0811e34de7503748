import SourceLint.Source.Grammar.Attribute

/-! # Paths, types, bounds and generic parameters

In types the arguments of a name follow it at once, in values a separator has to
introduce them. A type is kept by the expressions in it, such as array lengths and
constant arguments.
-/

namespace SourceLint.Source

open Token Reader

variable {W : Name → Prop}

def isPathStart (ts : List (Token W)) : Bool :=
  isPathWord ts || isMark "::" ts

/-- A bound may come next, where `const` counts as well or not. -/
def isBoundStart (const : Bool) (ts : List (Token W)) : Bool :=
  isAnyWord ts || isMark "::" ts || isMark "?" ts || isLifetime ts || isGroup .parenthesis ts ||
    (const && isGroup .bracket ts)

/-- Parenthesised arguments come next, perhaps behind a separator. -/
def isParenthesized (ts : List (Token W)) : Bool :=
  isGroup .parenthesis ts || (isMark "::" ts && third (isGroup .parenthesis) ts)

/-- A separator that goes on a path comes next. -/
def isPathTail (ts : List (Token W)) : Bool :=
  isMark "::" ts && !third (isGroup .parenthesis) ts

/-- A colon comes next and no separator of a path. -/
def isColon (ts : List (Token W)) : Bool :=
  isMark ":" ts && !isMark "::" ts

namespace Grammar

variable (g : Grammar W)

/-- A constant in the place of a generic argument. -/
def constArgument : Reader W (List (Node W)) := do
  if ← peek isLiteral then
    literal
    return []
  else if ← peek isIdentifier then return [.path (← identifier) []]
  else g.valuedBlock

/-- What stands behind an arrow, if one comes next. -/
def returnType (plus : Bool) : Reader W (List (Node W)) := do
  if ← markIf "->" then return (← g.type plus).parts
  else return []

def argumentValue : Reader W (List (Node W)) := do
  if ← peek (fun ts => isLiteral ts || isGroup .brace ts) then g.constArgument
  else return (← g.type true).parts

def genericArgument : Reader W (List (Node W)) := do
  if ← peek (fun ts => isLifetime ts && !second (isMark "+") ts) then
    lifetime
    return []
  else if ← peek (fun ts => isLiteral ts || isGroup .brace ts) then g.constArgument
  else
    let type ← g.type true
    if type.shape ≠ .name then return type.parts
    else if ← markIf "=" then return type.parts ++ (← g.argumentValue)
    else if ← markIf ":" then
      let bounds ← chained "+" (fun ts => isMark "," ts || isMark ">" ts) (g.bound false true)
      return type.parts ++ bounds.flatMap (·.parts)
    else return type.parts

/-- Arguments in angle brackets, perhaps behind a separator. -/
def angleArguments : Reader W (List (List (Node W))) := do
  discard (markIf "::")
  mark "<"
  let arguments ← separated "," (isMark ">") g.genericArgument
  mark ">"
  return arguments

/-- Arguments in parentheses with what they return. -/
def parenthesizedArguments : Reader W (List (Node W)) := do
  let inputs ← inGroup .parenthesis (commaList (g.type true))
  return inputs.flatMap (·.parts) ++ (← g.returnType false)

/-- One name of a path with its arguments, in a value or in a type. -/
def segment (value : Bool) : Reader W (PathTree W) := do
  if ← peek (isAnyOf ["super", "self", "crate", "try"]) then return { last := ← anyWord }
  let last ← if ← peek (isWord "Self") then anyWord else identifier
  if ← peek (fun ts => (!value && isMark "<" ts && !isMark "<=" ts) ||
      (isMark "::" ts && third (isMark "<") ts)) then
    let arguments ← g.angleArguments
    return { last, arguments := .angles arguments.isEmpty, bare := false, parts := arguments.flatten }
  else return { last }

/-- A path with further names after a separator. -/
def extend (path : PathTree W) (rest : List (PathTree W)) : PathTree W :=
  rest.foldl (fun p s =>
    { p with
      leading := p.leading ++ [p.last], last := s.last, arguments := s.arguments,
      bare := p.bare && s.bare, parts := p.parts ++ s.parts }) path

/-- A path in a value or in a type. -/
def path (value : Bool) : Reader W (PathTree W) := do
  let absolute ← markIf "::"
  let first ← g.segment value
  let rest ← many isPathTail (do mark "::"; g.segment value)
  return extend { first with absolute } rest

/-- A path that may start with a self type in angle brackets. -/
def qualifiedPath (value : Bool) : Reader W (PathTree W) := do
  if ← markIf "<" then
    let self ← g.type true
    let ofTrait ← if ← wordIf "as" then (return (← g.path false).parts) else pure []
    mark ">"
    mark "::"
    let first ← g.segment value
    let rest ← many (isMark "::") (do mark "::"; g.segment value)
    let path := extend first rest
    return { path with qualified := true, parts := self.parts ++ ofTrait ++ path.parts }
  else g.path value

/-- Parenthesised arguments after the last name of a path in a type, and the names that
go on from there, in at most `steps` rounds. -/
def parenthesizedTail (path : PathTree W) : Nat → Reader W (PathTree W)
  | 0 => return path
  | steps + 1 => do
    if path.arguments.isEmpty && (← peek isParenthesized) then
      discard (markIf "::")
      let arguments ← g.parenthesizedArguments
      let rest ← many isPathTail (do mark "::"; g.segment false)
      parenthesizedTail
        (extend { path with
          arguments := .parentheses, bare := false, parts := path.parts ++ arguments } rest)
        steps
    else return path

/-- A path that stands for a type. -/
def typePath : Reader W (PathTree W) := do
  g.parenthesizedTail (← g.qualifiedPath false) (← get).length

/-- The bounds of a parameter of lifetime kind. -/
def lifetimeBounds (stop : List (Token W) → Bool) : Reader W Unit := do
  discard (chained "+" stop lifetime)

/-- One generic parameter after its attributes. -/
def genericParameter : Reader W (List (Node W)) := do
  if ← peek isLifetime then
    lifetime
    if ← markIf ":" then
      lifetimeBounds fun ts => ts.isEmpty || isMark "," ts || isMark ">" ts
    return []
  else if ← wordIf "const" then
    discard identifier
    mark ":"
    let type ← g.type true
    if ← markIf "=" then return type.parts ++ (← g.constArgument)
    else return type.parts
  else
    discard identifier
    let bounds ←
      if ← markIf ":" then
        chained "+" (fun ts => isMark "," ts || isMark ">" ts || isMark "=" ts) (g.bound false true)
      else pure []
    let default ← if ← markIf "=" then (return (← g.type true).parts) else pure []
    return bounds.flatMap (·.parts) ++ default

/-- One generic parameter with its attributes. -/
def attributedParameter : Reader W (List (Node W)) := do
  let attributes ← g.outerAttributes
  return attributes.values ++ (← g.genericParameter)

/-- One generic parameter of an item, which may be an underscore. -/
def itemParameter : Reader W (List (Node W)) := do
  let attributes ← g.outerAttributes
  if ← wordIf "_" then return attributes.values
  else return attributes.values ++ (← g.attributedParameter)

/-- The lifetimes that a `for` introduces, if one comes next. -/
def forLifetimes : Reader W (Option (List (Node W))) := do
  if ← wordIf "for" then
    mark "<"
    let parameters ← separated "," (isMark ">") g.attributedParameter
    mark ">"
    return some parameters.flatten
  else return none

/-- The generic parameters of an item, with whether there are brackets at all. -/
def generics : Reader W (List (Node W) × Bool) := do
  if ← peek (isMark "<") then
    mark "<"
    let parameters ← separated "," (isMark ">") g.itemParameter
    mark ">"
    return (parameters.flatten, true)
  else return ([], false)

/-- The end of the conditions behind `where`. -/
def endsConditions (ts : List (Token W)) : Bool :=
  ts.isEmpty || isGroup .brace ts || isMark "," ts || isMark ";" ts || isColon ts || isMark "=" ts

def condition : Reader W (List (Node W)) := do
  if ← peek (fun ts => isLifetime ts && second (isMark ":") ts) then
    lifetime
    mark ":"
    lifetimeBounds fun ts => endsConditions ts || isMark ":" ts
    return []
  else
    let lifetimes ← g.forLifetimes
    let type ← g.type true
    mark ":"
    let bounds ← chained "+" endsConditions (g.bound false true)
    return lifetimes.getD [] ++ type.parts ++ bounds.flatMap (·.parts)

/-- The conditions behind `where`, if it comes next. -/
def conditions : Reader W (Option (List (Node W))) := do
  if ← wordIf "where" then
    return some (← chained "," endsConditions g.condition).flatten
  else return none

/-- The names that an opaque type captures. -/
def captures : Reader W Unit := do
  word "use"
  mark "<"
  discard (separated "," (isMark ">") (do
    if ← peek isLifetime then lifetime
    else if ← peek (isWord "Self") then discard anyWord
    else discard identifier))
  mark ">"

/-- A bound that is a trait, with `const` in front or without. -/
def traitBound (const : Bool) : Reader W (BoundTree W) := do
  let outer ← g.forLifetimes
  let conditional ← peek (isGroup .bracket)
  if conditional then inGroup .bracket (word "const")
  let unconditional ← if conditional then pure false else wordIf "const"
  if (conditional || unconditional) && !const then failure
  let maybe ← markIf "?"
  let inner ← if maybe && outer.isNone then g.forLifetimes else pure none
  let lifetimes := outer <|> inner
  let path ← g.path false
  let arguments ←
    if path.arguments.isEmpty && (← peek isParenthesized) then do
      discard (markIf "::")
      g.parenthesizedArguments
    else pure []
  if lifetimes.isSome && maybe then failure
  if conditional || unconditional then return ⟨[], true⟩
  else return ⟨lifetimes.getD [] ++ path.parts ++ arguments, true⟩

/-- A bound: a lifetime, captured names, or a trait, perhaps in parentheses. -/
def boundBody (allowCaptures const : Bool) : Reader W (BoundTree W) := do
  if ← peek isLifetime then
    lifetime
    return ⟨[], false⟩
  else if ← peek (isWord "use") then
    captures
    if allowCaptures then return ⟨[], false⟩ else failure
  else if ← peek (isGroup .parenthesis) then inGroup .parenthesis (g.traitBound const)
  else g.traitBound const

/-- At most `steps` bounds. -/
def boundsUpTo (plus allowCaptures const : Bool) : Nat → Reader W (List (BoundTree W))
  | 0 => return []
  | steps + 1 => do
    let first ← g.bound allowCaptures const
    if plus && (← peek (isMark "+")) then
      mark "+"
      if ← peek (isBoundStart const) then
        return first :: (← boundsUpTo plus allowCaptures const steps)
      else return [first]
    else return [first]

/-- The bounds of a type that is known by them, one of which must name a trait. -/
def traitBounds (plus allowCaptures const : Bool) : Reader W (List (Node W)) := do
  let bounds ← g.boundsUpTo plus allowCaptures const ((← get).length + 1)
  if bounds.any (·.isTrait) then return bounds.flatMap (·.parts) else failure

/-- Further bounds, each behind a plus sign. -/
def plusBounds : Reader W (List (Node W)) := do
  let bounds ← many (isMark "+") (do mark "+"; g.bound false false)
  return bounds.flatMap (·.parts)

/-- What a type in parentheses turns out to be: the type itself, or its first bound when
`plus` allows others to follow. -/
def parenthesizedType (plus : Bool) (types : List (TypeTree W)) (comma : Bool) : Reader W (TypeTree W) := do
  match types, comma with
  | [first], false =>
    if plus && (first.shape = .name || first.shape = .path || first.shape = .bound) &&
        (← peek (isMark "+")) then
      return ⟨first.parts ++ (← g.plusBounds), .other⟩
    else return ⟨first.parts, .other⟩
  | _, _ => return ⟨types.flatMap (·.parts), .other⟩

/-- What stands in the parentheses of a type. -/
inductive InParentheses (W : Name → Prop) where
  | types (types : List (TypeTree W)) (comma : Bool)
  | object (parts : List (Node W))
  | maybe (bound : BoundTree W)

/-- The types in parentheses, with whether a comma stands among them. -/
def typesInParentheses : Reader W (InParentheses W) := do
  if ← peek List.isEmpty then return .types [] true
  else if ← peek isLifetime then return .object (← g.traitBounds true false false)
  else if ← peek (isMark "?") then return .maybe (← g.traitBound false)
  else
    let first ← g.type true
    if ← peek (isMark ",") then
      mark ","
      return .types (first :: (← commaList (g.type true))) true
    else return .types [first] false

/-- One input of a function type. The first may be a receiver. -/
def functionInput (first : Bool) : Reader W (List (Node W)) := do
  let attributes ← g.outerAttributes
  let mutableSelf := fun ts => first && isWord "mut" ts && second (isWord "self") ts
  let isMutable ← peek mutableSelf
  if isMutable then word "mut"
  let named ← peek fun ts =>
    (isIdentifier ts || isWord "_" ts || (first && isWord "self" ts)) && second isColon ts
  if named then
    discard anyWord
    mark ":"
  if isMutable && !named then
    word "self"
    return attributes.values
  else
    let type ← g.type true
    return attributes.values ++ (if isMutable then [] else type.parts)

/-- The dots of a function type with any number of inputs. -/
def isVariadic (ts : List (Token W)) : Bool :=
  isMark "..." ts ||
    ((isIdentifier ts || isWord "_" ts) && second (isMark ":") ts && third (isMark "...") ts)

/-- At most `steps` inputs of a function type. -/
def functionInputsUpTo (first : Bool) : Nat → Reader W (List (Node W))
  | 0 => return []
  | steps + 1 => do
    if ← peek List.isEmpty then return []
    let attributes ← g.outerAttributes
    if ← peek isVariadic then
      if ← peek isAnyWord then
        discard anyWord
        mark ":"
      mark "..."
      discard (markIf ",")
      return attributes.values
    else
      let input ← g.functionInput first
      if ← peek List.isEmpty then return attributes.values ++ input
      mark ","
      return attributes.values ++ input ++ (← functionInputsUpTo false steps)

def functionType : Reader W (TypeTree W) := do
  discard (wordIf "unsafe")
  if ← wordIf "extern" then stringIf
  word "fn"
  let inputs ← inGroup .parenthesis (do g.functionInputsUpTo true ((← get).length + 1))
  return { parts := inputs ++ (← g.returnType false) }

/-- A type that starts with a path: the path, a macro, or the first of several bounds. -/
def namedType (plus : Bool) (lifetimes : Option (List (Node W))) : Reader W (TypeTree W) := do
  let path ← g.typePath
  if path.qualified then return { parts := path.parts }
  else if path.bare && (← peek (fun ts => isMark "!" ts && !isMark "!=" ts)) then
    mark "!"
    return { parts := (← g.macroTail).1 }
  else
    let parts := lifetimes.getD [] ++ path.parts
    if plus && (← peek (isMark "+")) then
      mark "+"
      if ← peek (isBoundStart false) then
        let more ← g.boundsUpTo true false false ((← get).length + 1)
        return { parts := parts ++ more.flatMap (·.parts) }
      else return { parts }
    else if lifetimes.isSome then return { parts, shape := .bound }
    else if path.leading.isEmpty && !path.absolute && path.arguments ≠ .parentheses then
      return { parts, shape := .name }
    else return { parts, shape := .path }

/-- A type that starts with a word or an angle bracket, after the lifetimes of a `for`. -/
def wordType (plus : Bool) (lifetimes : Option (List (Node W))) : Reader W (TypeTree W) := do
  if ← peek (isAnyOf ["fn", "unsafe", "extern"]) then
    let type ← g.functionType
    return { type with parts := lifetimes.getD [] ++ type.parts }
  else g.namedType plus lifetimes

def arrayType : Reader W (TypeTree W) :=
  inGroup .bracket do
    let element ← g.type true
    if ← markIf ";" then
      return { parts := element.parts ++ [(← g.expression true).node] }
    else return { parts := element.parts }

/-- A type in parentheses, a tuple, or a list of bounds whose first is in parentheses. -/
def groupedType (plus : Bool) : Reader W (TypeTree W) := do
  match ← inGroup .parenthesis g.typesInParentheses with
  | .types types comma => g.parenthesizedType plus types comma
  | .object parts => return { parts }
  | .maybe bound =>
    let single := !(← peek (isMark "+"))
    let more ← g.plusBounds
    return ⟨bound.parts ++ more, if single then .bound else .other⟩

def typeBody (plus : Bool) : Reader W (TypeTree W) := do
  if ← peek (isWord "for") then
    let lifetimes ← g.forLifetimes
    need fun ts => isPathWord ts || isAnyOf ["fn", "unsafe", "extern"] ts
    g.wordType plus lifetimes
  else if ← peek (isGroup .parenthesis) then g.groupedType plus
  else if ← peek (fun ts =>
      isAnyOf ["fn", "unsafe", "extern"] ts || isPathStart ts || isMark "<" ts) then
    g.wordType plus none
  else if ← wordIf "dyn" then
    let starred ← markIf "*"
    let parts ← g.traitBounds plus false false
    return { parts := if starred then [] else parts }
  else if ← peek (isGroup .bracket) then g.arrayType
  else if ← markIf "*" then
    need (isAnyOf ["const", "mut"])
    discard anyWord
    return { parts := (← g.type false).parts }
  else if ← markIf "&" then
    lifetimeIf
    discard (wordIf "mut")
    return { parts := (← g.type false).parts }
  else if ← markIf "!" then return { parts := [] }
  else if ← wordIf "impl" then return { parts := ← g.traitBounds plus true true }
  else if ← wordIf "_" then return { parts := [] }
  else if ← peek isLifetime then return { parts := ← g.traitBounds true false false }
  else failure

end Grammar

end SourceLint.Source
