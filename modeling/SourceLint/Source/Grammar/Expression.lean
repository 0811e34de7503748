import SourceLint.Source.Grammar.Pattern

/-! # Expressions

An operand has attributes and unary operators in front and trailers behind; binary
operators, ranges and casts join operands by precedence. A struct literal is not read
where a brace begins a body.
-/

namespace SourceLint.Source

open Token Reader

variable {W : Name → Prop}

/-- The binary operators by their spelling, longer ones before those they begin with. -/
def operators : List (String × Precedence) :=
  [("+=", .assign), ("-=", .assign), ("*=", .assign), ("/=", .assign), ("%=", .assign),
    ("^=", .assign), ("&=", .assign), ("|=", .assign), ("<<=", .assign), (">>=", .assign),
    ("&&", .and), ("||", .or), ("<<", .shift), (">>", .shift), ("==", .compare), ("<=", .compare),
    ("!=", .compare), (">=", .compare), ("+", .sum), ("-", .sum), ("*", .product),
    ("/", .product), ("%", .product), ("^", .bitXor), ("&", .bitAnd), ("|", .bitOr),
    ("<", .compare), (">", .compare)]

def operator? (ts : List (Token W)) : Option (String × Precedence) :=
  operators.find? fun (spelling, _) => isMark spelling ts

def isAssignment (ts : List (Token W)) : Bool :=
  isMark "=" ts && !isMark "=>" ts

/-- How tightly what comes next binds to a left operand. -/
def nextPrecedence (ts : List (Token W)) : Precedence :=
  match operator? ts with
  | some (_, precedence) => precedence
  | none =>
    if isAssignment ts then .assign
    else if isMark ".." ts then .range
    else if isWord "as" ts then .cast
    else .jump

/-- A dot that is not the first of several comes next. -/
def isDot (ts : List (Token W)) : Bool :=
  isMark "." ts && !isMark ".." ts

/-- A trailer that a cast must not have comes next. -/
def startsTrailer (ts : List (Token W)) : Bool :=
  isDot ts || isMark "?" ts || isGroup .bracket ts || isGroup .parenthesis ts

/-- Nothing that ends a range comes next. -/
def endsRange (structs : Bool) (ts : List (Token W)) : Bool :=
  ts.isEmpty || isDot ts || (!structs && isGroup .brace ts) || isWord "as" ts ||
    [",", ";", "?", "=>", "=", "+", "/", "%", "^", ">", "<=", "!=", "-=", "*=", "&=", "|=",
      "<<="].any (isMark · ts)

def startsExpression (ts : List (Token W)) : Bool :=
  (isAnyWord ts && !isWord "as" ts) || isAnyGroup ts || isLiteral ts ||
    (isMark "!" ts && !isMark "!=" ts) ||
    (isMark "-" ts && !isMark "-=" ts && !isMark "->" ts) ||
    (isMark "*" ts && !isMark "*=" ts) || (isMark "|" ts && !isMark "|=" ts) ||
    (isMark "&" ts && !isMark "&=" ts) || isMark ".." ts ||
    (isMark "<" ts && !isMark "<=" ts && !isMark "<<=" ts) || isMark "::" ts ||
    isLifetime ts || isMark "#" ts

/-- Generic parameters come next, and not a path with a self type. -/
def startsGenerics (ts : List (Token W)) : Bool :=
  isMark "<" ts &&
    (second (isMark ">") ts || second (isMark "#") ts || second (isWord "const") ts ||
      (second (fun us => isLifetime us || isIdentifier us) ts &&
        third (fun us => isColon us || isMark "," us || isMark ">" us || isMark "=" us) ts))

def startsClosure (ts : List (Token W)) : Bool :=
  isMark "|" ts || isWord "move" ts || (isWord "for" ts && second startsGenerics ts) ||
    (isWord "const" ts && !second (isGroup .brace) ts) || isWord "static" ts ||
    (isWord "async" ts && second (fun us => isMark "|" us || isWord "move" us) ts)

def startsAsync (ts : List (Token W)) : Bool :=
  isWord "async" ts &&
    (second (isGroup .brace) ts || (second (isWord "move") ts && third (isGroup .brace) ts))

/-- The dots of a range, and whether they include the upper bound. -/
def rangeLimits : Reader W Bool := do
  if ← markIf "..=" then return true
  else if ← peek (isMark "...") then failure
  else
    mark ".."
    return false

namespace Grammar

variable (g : Grammar W)

/-- At most `steps` rounds of reading on while what comes next binds more tightly than
`precedence`, or as tightly as an assignment does. A round that takes nothing is the
last. -/
def operandTail (structs : Bool) (precedence : Precedence) (e : Expression W) :
    Nat → Reader W (Expression W)
  | 0 => return e
  | steps + 1 => do
    let next := nextPrecedence (← get)
    if precedence.rank < next.rank || (next = precedence && precedence = .assign) then
      let before := (← get).length
      let more ← g.operations e structs next
      if (← get).length = before then return more
      else operandTail structs precedence more steps
    else return e

def rightOperand (structs : Bool) (precedence : Precedence) : Reader W (Expression W) := do
  let e ← g.operand structs
  g.operandTail structs precedence e (← get).length

def rangeEnd (structs closed : Bool) : Reader W (List (Node W)) := do
  if !closed && (← peek (endsRange structs)) then return []
  else return [(← g.rightOperand structs .range).node]

/-- One operation on the left operand, if it may go on. -/
def operation (left : Expression W) (structs : Bool) (floor : Precedence) :
    Reader W (Option (Expression W)) := do
  let ts ← get
  if left.shape = .range then return none
  else
    match operator? ts with
    | some (spelling, precedence) =>
      if precedence.rank < floor.rank then return none
      else if precedence = .compare && left.shape = .comparison then failure
      else
        mark spelling
        let right ← g.rightOperand structs precedence
        return some ⟨.operation left.node [right.node],
          if precedence = .compare then .comparison else .other⟩
    | none =>
      if floor.rank ≤ Precedence.assign.rank && isAssignment ts then
        mark "="
        let right ← g.rightOperand structs .assign
        return some { node := .operation left.node [right.node] }
      else if floor.rank ≤ Precedence.range.rank && isMark ".." ts then
        let closed ← rangeLimits
        let upper ← g.rangeEnd structs closed
        return some ⟨.group (left.node :: upper), .range⟩
      else if isWord "as" ts then
        word "as"
        let type ← g.type false
        if ← peek startsTrailer then failure
        return some { node := .operation left.node type.parts }
      else return none

/-- At most `steps` operations on the left operand. -/
def operationsUpTo (left : Expression W) (structs : Bool) (floor : Precedence) :
    Nat → Reader W (Expression W)
  | 0 => return left
  | steps + 1 => do
    match ← g.operation left structs floor with
    | some next => operationsUpTo next structs floor steps
    | none => return left

def operationsBody (left : Expression W) (structs : Bool) (floor : Precedence) :
    Reader W (Expression W) := do
  g.operationsUpTo left structs floor (← get).length

/-- An expression, with struct literals or without. -/
def expressionBody (structs : Bool) : Reader W (Expression W) := do
  let left ← g.operand structs
  g.operations left structs .jump

def expressionList : Reader W (List (Node W)) :=
  commaList (return (← g.expression true).node)

/-- What follows the dot of a trailer: an await, a field or a method. -/
def memberTrailer (e : Expression W) : Reader W (Expression W) := do
  if ← wordIf "await" then return .ofParts [e.node]
  else if ← peek isIdentifier then
    let name ← identifier
    let turbofish ← if ← markIf "::" then (return some (← g.angleArguments)) else pure none
    if turbofish.isSome || (← peek (isGroup .parenthesis)) then
      let arguments ← inGroup .parenthesis g.expressionList
      return { node := .methodCall name (e.node :: (turbofish.getD []).flatten ++ arguments) }
    else return .ofParts [e.node]
  else
    fieldIndex
    return .ofParts [e.node]

/-- What follows the dot of a trailer, where a float may stand for several indices. -/
def dotTrailer (e : Expression W) : Reader W (Expression W) := do
  match ← get with
  | .literal text :: rest =>
    if isFloat text.toList then
      if isIndexChain text.toList then
        set rest
        if text.endsWith "." then g.memberTrailer (.ofParts [e.node])
        else return .ofParts [e.node]
      else failure
    else g.memberTrailer e
  | _ => g.memberTrailer e

/-- At most `steps` trailers of an expression. -/
def trailersUpTo (e : Expression W) : Nat → Reader W (Expression W)
  | 0 => return e
  | steps + 1 => do
    if ← peek (isGroup .parenthesis) then
      let arguments ← inGroup .parenthesis g.expressionList
      trailersUpTo { node := .call [] e.node arguments } steps
    else if e.shape ≠ .range && (← peek isDot) then
      mark "."
      trailersUpTo (← g.dotTrailer e) steps
    else if ← peek (isGroup .bracket) then
      let index ← inGroup .bracket (g.expression true)
      trailersUpTo (.ofParts [e.node, index.node]) steps
    else if e.shape ≠ .range && (← peek (isMark "?")) then
      mark "?"
      trailersUpTo (.ofParts [e.node]) steps
    else return e

def trailers (e : Expression W) : Reader W (Expression W) := do
  g.trailersUpTo e (← get).length

def fieldValue : Reader W (List (Node W)) := do
  let attributes ← g.outerAttributes
  if ← peek isIdentifier then
    let name ← identifier
    if ← markIf ":" then return attributes.values ++ [(← g.expression true).node]
    else return attributes.values ++ [.path name []]
  else
    fieldIndex
    mark ":"
    return attributes.values ++ [(← g.expression true).node]

/-- What stands in the braces of a struct literal, at most `steps` fields of it. -/
def structFieldsUpTo : Nat → Reader W (List (Node W))
  | 0 => return []
  | steps + 1 => do
    if ← peek List.isEmpty then return []
    if ← markIf ".." then
      if ← peek List.isEmpty then return []
      else return [(← g.expression true).node]
    let field ← g.fieldValue
    if ← peek List.isEmpty then return field
    mark ","
    return field ++ (← structFieldsUpTo steps)

/-- An expression that starts with a path: the path, a macro, or a struct literal. -/
def pathExpression (structs : Bool) : Reader W (Expression W) := do
  let path ← g.qualifiedPath true
  if !path.qualified && path.bare && (← peek (fun ts => isMark "!" ts && !isMark "!=" ts)) then
    mark "!"
    let (arguments, braced) ← g.macroTail
    return ⟨.group arguments, .invocation braced⟩
  else if structs && (← peek (isGroup .brace)) then
    let fields ← inGroup .brace (do g.structFieldsUpTo ((← get).length + 1))
    return .ofParts (path.parts ++ fields)
  else return { node := .path path.last path.parts }

/-- An array, by its elements or by one element and a length. -/
def arrayExpression : Reader W (Expression W) :=
  inGroup .bracket do
    if ← peek List.isEmpty then return .ofParts []
    let first ← g.expression true
    if ← markIf ";" then return .ofParts [first.node, (← g.expression true).node]
    else if ← peek List.isEmpty then return .ofParts [first.node]
    else
      mark ","
      return .ofParts (first.node :: (← g.expressionList))

def closureParameter : Reader W (List (Node W)) := do
  let attributes ← g.outerAttributes
  let pattern ← g.pattern
  let type ← if ← markIf ":" then (return (← g.type true).parts) else pure []
  return attributes.values ++ pattern.parts ++ type

def closure (structs : Bool) : Reader W (Expression W) := do
  let lifetimes ← g.forLifetimes
  discard (wordIf "const")
  discard (wordIf "static")
  discard (wordIf "async")
  discard (wordIf "move")
  mark "|"
  let parameters ← separated "," (isMark "|") g.closureParameter
  mark "|"
  let start := lifetimes.getD [] ++ parameters.flatten
  if ← markIf "->" then
    let type ← g.type true
    return .ofParts (start ++ type.parts ++ (← g.block))
  else return .ofParts (start ++ [(← g.expression structs).node])

/-- At most `steps` branches of a condition. -/
def branchesUpTo : Nat → Reader W (List (Node W))
  | 0 => failure
  | steps + 1 => do
    word "if"
    let condition ← g.expression false
    let body ← g.block
    let branch := condition.node :: body
    if ← wordIf "else" then
      if ← peek (isWord "if") then return branch ++ (← branchesUpTo steps)
      else return branch ++ (← g.block)
    else return branch

def conditional : Reader W (Expression W) := do
  return ⟨.group (← g.branchesUpTo (← get).length), .block⟩

def whileLoop : Reader W (Expression W) := do
  word "while"
  let condition ← g.expression false
  let (attributes, body) ← g.attributedBlock
  return ⟨.group (attributes.values ++ condition.node :: body), .block⟩

def forLoop : Reader W (Expression W) := do
  word "for"
  let pattern ← g.alternatives
  word "in"
  let range ← g.expression false
  let (attributes, body) ← g.attributedBlock
  return ⟨.group (attributes.values ++ pattern.parts ++ range.node :: body), .block⟩

/-- A block behind a word, with attributes of its own. -/
def wordBlock (w : String) : Reader W (Expression W) := do
  word w
  return ⟨.group (← g.valuedBlock), .block⟩

def tryBlock : Reader W (Expression W) := do
  word "try"
  return ⟨.group (← g.block), .block⟩

def blockExpression : Reader W (Expression W) := do
  return ⟨.group (← g.valuedBlock), .block⟩

def endlessLoop : Reader W (Expression W) :=
  g.wordBlock "loop"

/-- What has a label: a loop or a block. -/
def labelled : Reader W (Expression W) := do
  lifetime
  mark ":"
  if ← peek (isWord "while") then g.whileLoop
  else if ← peek (isWord "for") then g.forLoop
  else if ← peek (isWord "loop") then g.endlessLoop
  else g.blockExpression

def matchCase : Reader W (List (Node W)) := do
  let attributes ← g.outerAttributes
  let pattern ← g.alternatives
  let guard ← if ← wordIf "if" then (return [(← g.expression true).node]) else pure []
  mark "=>"
  let result ← g.eager
  if result.shape ≠ .block && !(← peek List.isEmpty) then mark "," else discard (markIf ",")
  return attributes.values ++ pattern.parts ++ guard ++ [result.node]

def matchExpression : Reader W (Expression W) := do
  word "match"
  let subject ← g.expression false
  let (attributes, cases) ← inGroup .brace do
    let attributes ← g.innerAttributes
    return (attributes, ← all g.matchCase)
  return ⟨.group (attributes.values ++ subject.node :: cases.flatten), .block⟩

/-- A condition that binds by a pattern. -/
def letExpression (structs : Bool) : Reader W (Expression W) := do
  word "let"
  let pattern ← g.alternatives
  mark "="
  let left ← g.operand structs
  let subject ← g.operations left structs .compare
  return .ofParts (pattern.parts ++ [subject.node])

/-- The value that leaves a function, if one comes next. -/
def leavingValue : Reader W (List (Node W)) := do
  if ← peek startsExpression then return [(← g.expression true).node] else return []

def breakExpression (structs : Bool) : Reader W (Expression W) := do
  word "break"
  if ← peek (fun ts => isLifetime ts && second (isMark ":") ts) then failure
  lifetimeIf
  if !structs && (← peek (isGroup .brace)) then return .ofParts []
  else return .ofParts (← g.leavingValue)

/-- Parentheses around an expression, or a tuple. -/
def tupleExpression : Reader W (Expression W) :=
  inGroup .parenthesis (return .ofParts (← g.expressionList))

/-- An expression that is only accepted. -/
def unreadExpression (content : Reader W Unit) : Reader W (Expression W) := do
  content
  return { node := .unread }

/-- An expression that starts with a keyword of its own. -/
def keywordExpression (structs : Bool) : Reader W (Expression W) := do
  if ← peek (isWord "break") then g.breakExpression structs
  else if ← wordIf "continue" then
    lifetimeIf
    return .ofParts []
  else if ← wordIf "return" then return .ofParts (← g.leavingValue)
  else if ← wordIf "become" then unreadExpression (discard (g.expression true))
  else if ← peek (isWord "let") then g.letExpression structs
  else if ← peek (isWord "if") then g.conditional
  else if ← peek (isWord "while") then g.whileLoop
  else if ← peek (isWord "for") then g.forLoop
  else if ← peek (isWord "loop") then g.endlessLoop
  else if ← peek (isWord "match") then g.matchExpression
  else if ← wordIf "yield" then return .ofParts (← g.leavingValue)
  else if ← peek (isWord "unsafe") then g.wordBlock "unsafe"
  else if ← peek (isWord "const") then g.wordBlock "const"
  else if ← wordIf "_" then return .ofParts []
  else failure

/-- A form of its own that a compiler knows, which is not looked into. -/
def builtinForm : Reader W (Expression W) :=
  unreadExpression do
    word "builtin"
    mark "#"
    discard identifier
    inGroup .parenthesis (discard rest)

/-- An expression without operators and trailers. -/
def atom (structs : Bool) : Reader W (Expression W) := do
  if ← peek isLiteral then
    literal
    return .ofParts []
  else if ← peek startsAsync then
    word "async"
    discard (wordIf "move")
    return .ofParts (← g.block)
  else if ← peek (fun ts => isWord "try" ts && second (isGroup .brace) ts) then g.tryBlock
  else if ← peek startsClosure then g.closure structs
  else if ← peek (fun ts => isWord "builtin" ts && second (isMark "#") ts) then builtinForm
  else if ← peek (fun ts => isPathStart ts || isMark "<" ts ||
      (isWord "try" ts && second (fun us => isMark "!" us || isMark "::" us) ts)) then
    g.pathExpression structs
  else if ← peek (isGroup .parenthesis) then g.tupleExpression
  else if ← peek (isGroup .bracket) then g.arrayExpression
  else if ← peek (isGroup .brace) then g.blockExpression
  else if ← peek (isMark "..") then
    let closed ← rangeLimits
    return ⟨.group (← g.rangeEnd structs closed), .range⟩
  else if ← peek isLifetime then g.labelled
  else g.keywordExpression structs

/-- The address of an operand, which may be taken raw. -/
def reference (structs : Bool) : Reader W (Expression W) := do
  mark "&"
  let raw ← peek fun ts => isWord "raw" ts && second (isAnyOf ["mut", "const"]) ts
  if raw then
    word "raw"
    discard anyWord
  else discard (wordIf "mut")
  return .ofParts [(← g.operand structs).node]

/-- An operand: attributes, operators in front, and what they apply to. -/
def operandBody (structs : Bool) : Reader W (Expression W) := do
  let attributes ← g.outerAttributes
  if ← peek (isMark "&") then
    return (← g.reference structs).attach attributes.values
  else if ← peek (fun ts => isMark "*" ts || isMark "!" ts || isMark "-" ts) then
    discard anyToken
    return .ofParts (attributes.values ++ [(← g.operand structs).node])
  else
    let e ← g.trailers (← g.atom structs)
    if e.shape = .range && !attributes.marks.isEmpty then failure
    return e.attach attributes.values

/-- An expression that its own brace may end, if one comes next. -/
def braced? (ts : List (Token W)) : Option (Reader W (Expression W)) :=
  if isWord "if" ts then some g.conditional
  else if isWord "while" ts then some g.whileLoop
  else if isWord "for" ts && !second startsGenerics ts then some g.forLoop
  else if isWord "loop" ts then some g.endlessLoop
  else if isWord "match" ts then some g.matchExpression
  else if isWord "try" ts && second (isGroup .brace) ts then some g.tryBlock
  else if isWord "unsafe" ts then some (g.wordBlock "unsafe")
  else if isWord "const" ts && second (isGroup .brace) ts then some (g.wordBlock "const")
  else if isGroup .brace ts then some g.blockExpression
  else if isLifetime ts then some g.labelled
  else none

/-- An expression where a statement or the result of a case begins: what its own brace
ends goes no further unless a trailer follows it. -/
def eagerBody : Reader W (Expression W) := do
  let attributes ← g.outerAttributes
  match g.braced? (← get) with
  | some read =>
    let e ← read
    if ← peek (fun ts => isDot ts || isMark "?" ts) then
      let e ← g.trailers e
      g.operations (e.attach attributes.values) true .jump
    else return e.attach attributes.values
  | none =>
    let e ← g.operand true
    g.operations (e.attach attributes.values) true .jump

end Grammar

end SourceLint.Source
