import SourceLint.Source.Grammar.Item
import SourceLint.Source.Token.Tree

/-! # Files

The grammar of everything is tied together here, and a whole text is read with it. A
byte order mark and an interpreter line in front do not belong to the syntax.
-/

namespace SourceLint.Source

open Token Reader

variable {W : Name → Prop}

/-- Every category by its parts, given a grammar for those. -/
def Grammar.unfold (g : Grammar W) : Grammar W
  | .type plus => g.typeBody plus
  | .bound captures const => g.boundBody captures const
  | .pattern => g.patternBody
  | .expression structs => g.expressionBody structs
  | .eager => g.eagerBody
  | .operand structs => g.operandBody structs
  | .operations left structs floor => g.operationsBody left structs floor
  | .statements => g.statementsBody
  | .item attributes => g.itemBody attributes
  | .imports root => g.importsBody root
  | .fields => g.fieldsBody

/-- The grammar of syntax that nests to a depth. -/
def grammar : Nat → Grammar W
  | 0, _ => failure
  | depth + 1, c => (grammar depth).unfold c

/-- A grammar deep enough for the tokens: no category nests in more than eight others
without a token of its own. -/
def grammarFor (tokens : List (Token W)) : Grammar W :=
  grammar (8 * countAll tokens + 8)

/-- The text without a byte order mark in front. -/
def withoutMark (cs : List Char) : List Char :=
  if cs.head? = some '\ufeff' then cs.drop 1 else cs

/-- The text without an interpreter line in front. A line that goes on as an attribute is
none. -/
def withoutInterpreter (cs : List Char) : List Char :=
  match cs with
  | '#' :: '!' :: rest =>
    if (dropBlanks 0 rest).head? = some '[' then cs else cs.dropWhile (· ≠ '\n')
  | _ => cs

/-- The syntax tree of token trees. -/
def treeOf? (tokens : List (Token W)) : Option (Tree W) :=
  let g := grammarFor tokens
  let read : Reader W (Tree W) := do
    let attributes ← g.innerAttributes
    return ⟨attributes.marks, attributes.values, ← g.itemList⟩
  match read tokens with
  | some (tree, []) => some tree
  | _ => none

/-- What is read of a text. -/
def contentOf (text : String) : List Char :=
  withoutInterpreter (withoutMark text.toList)

/-- The syntax tree of a text, if it is well formed. -/
def parse? (text : String) : Option (Tree (IsWordOf (contentOf text))) :=
  (trees? (contentOf text)).bind treeOf?

/-- The attributes that a text consists of. -/
def parseAttributes? (text : String) : Option (List Attribute) :=
  (trees? text.toList).bind fun tokens =>
    match (grammarFor tokens).outerAttributes tokens with
    | some (attributes, []) => some attributes.marks
    | _ => none

/-- The last name of the path that a text consists of. -/
def parsePathName? (text : String) : Option (Word (IsWordOf text.toList)) :=
  (trees? text.toList).bind fun tokens =>
    match (grammarFor tokens).path false tokens with
    | some (path, []) => some path.last
    | _ => none

end SourceLint.Source
