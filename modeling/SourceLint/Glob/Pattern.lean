/-! # Glob patterns

A pattern is compiled once into tokens. `?` and a bracketed class take one
character, `*` any text, and `**` any number of whole directories; it must be a
path component by itself. There are no escapes. A pattern that does not compile
names the place of the fault, counted in characters from zero.
-/

namespace SourceLint.Glob

/-- One entry of a bracketed class. -/
inductive Specifier where
  | single (c : Char)
  | range (low high : Char)
  deriving Repr, DecidableEq, BEq

/-- The entry holds the character. -/
def Specifier.admits : Specifier → Char → Bool
  | single d, c => c = d
  | range low high, c => low ≤ c && c ≤ high

/-- What a token that takes one character asks of it. -/
inductive CharTest where
  /-- Nothing. -/
  | any
  /-- To be this one. -/
  | is (c : Char)
  /-- To be in a class. -/
  | within (specifiers : List Specifier)
  /-- Not to be in a class. -/
  | except (specifiers : List Specifier)
  deriving Repr, DecidableEq, BEq

/-- The character passes the test. -/
def CharTest.admits : CharTest → Char → Bool
  | any, _ => true
  | is d, c => c = d
  | within specifiers, c => specifiers.any (·.admits c)
  | except specifiers, c => !specifiers.any (·.admits c)

/-- One token of a pattern. -/
inductive Token where
  /-- One character. -/
  | one (test : CharTest)
  /-- Any text, separators included. -/
  | anyText
  /-- Any number of whole directories. -/
  | anyDirectories
  deriving Repr, DecidableEq, BEq

/-- Why a pattern does not compile. -/
inductive Fault where
  /-- More than two stars in a row. -/
  | starRun
  /-- Two stars that are not a whole component. -/
  | partialDirectories
  /-- A bracket without its partner. -/
  | openClass
  deriving Repr, DecidableEq, BEq

/-- A fault in words. -/
def Fault.message : Fault → String
  | starRun => "wildcards are either regular `*` or recursive `**`"
  | partialDirectories => "recursive wildcards must form a single path component"
  | openClass => "invalid range pattern"

/-- A fault and its place. -/
structure Error where
  position : Nat
  fault : Fault
  deriving Repr, DecidableEq, BEq

/-- An error as reports show it. -/
def Error.render (e : Error) : String :=
  "Pattern syntax error near position " ++ toString e.position ++ ": " ++ e.fault.message

/-- The entries of a class: a hyphen between two characters makes a range. -/
def specifiers : List Char → List Specifier
  | low :: '-' :: high :: rest => .range low high :: specifiers rest
  | c :: rest => .single c :: specifiers rest
  | [] => []

/-- What stands before the first closing bracket, and what follows it. -/
def untilBracket : List Char → Option (List Char × List Char)
  | [] => none
  | ']' :: rest => some ([], rest)
  | c :: rest => (untilBracket rest).map fun (inside, after) => (c :: inside, after)

/-- A class after its opening bracket. Its first character is never its end. -/
def classToken? : List Char → Option (Token × Nat × List Char)
  | '!' :: first :: rest =>
    (untilBracket rest).map fun (inside, after) =>
      (.one (.except (specifiers (first :: inside))), inside.length + 4, after)
  | '!' :: [] => none
  | first :: rest =>
    (untilBracket rest).map fun (inside, after) =>
      (.one (.within (specifiers (first :: inside))), inside.length + 3, after)
  | [] => none

/-- Add a `**`, which counts once after another one that does not stand first. -/
def addDirectories (tokens : List Token) : List Token :=
  if tokens.length > 1 ∧ tokens.getLast? = some .anyDirectories then tokens
  else tokens ++ [.anyDirectories]

/-- Compile the characters from place `i` on, in at most `steps` steps; `tokens`
are those so far and `previous` is the character before. -/
def compileFrom : Nat → List Token → Option Char → Nat → List Char → Except Error (List Token)
  | 0, tokens, _, _, _ => .ok tokens
  | _ + 1, tokens, _, _, [] => .ok tokens
  | steps + 1, tokens, previous, i, c :: cs =>
    if c = '?' then compileFrom steps (tokens ++ [.one .any]) c (i + 1) cs
    else if c = '*' then
      match cs with
      | '*' :: '*' :: _ => .error ⟨i + 2, .starRun⟩
      | '*' :: rest =>
        if previous = none ∨ previous = some '/' then
          match rest with
          | [] => .ok (addDirectories tokens)
          | '/' :: after => compileFrom steps (addDirectories tokens) '/' (i + 3) after
          | _ => .error ⟨i + 2, .partialDirectories⟩
        else .error ⟨i - 1, .partialDirectories⟩
      | _ => compileFrom steps (tokens ++ [.anyText]) c (i + 1) cs
    else if c = '[' then
      match classToken? cs with
      | some (token, size, rest) => compileFrom steps (tokens ++ [token]) ']' (i + size) rest
      | none => .error ⟨i, .openClass⟩
    else compileFrom steps (tokens ++ [.one (.is c)]) c (i + 1) cs

def compile (pattern : String) : Except Error (List Token) :=
  let cs := pattern.toList
  compileFrom cs.length [] none 0 cs

/-- The pattern compiles. -/
def isValid (pattern : String) : Bool :=
  (compile pattern).toBool

end SourceLint.Glob
