import SourceLint.Text.Blank

/-! # Decimal numbers in text

Two grammars are read, both over ASCII digits after trimming: natural numbers
with an optional plus sign, and integers with an optional sign of either kind.
Each is bounded by a machine word, and a literal past its bound is no number.
-/

namespace SourceLint.Text

/-- The largest unsigned 64-bit number. -/
def maxWord : Nat := UInt64.size - 1

/-- How many negative signed 64-bit numbers there are. -/
def halfWord : Nat := UInt64.size / 2

/-- The value of an ASCII digit. -/
def digit? (c : Char) : Option Nat :=
  if '0' ≤ c ∧ c ≤ '9' then some (c.toNat - '0'.toNat) else none

/-- The value of a run of digits that continues the number `n`. -/
def digitsFrom? (n : Nat) : List Char → Option Nat
  | [] => some n
  | c :: cs => (digit? c).bind fun d => digitsFrom? (10 * n + d) cs

/-- The value of a non-empty run of digits. -/
def digits? : List Char → Option Nat
  | [] => none
  | c :: cs => digitsFrom? 0 (c :: cs)

/-- A natural number that fits a 64-bit word, with an optional plus sign. -/
def natural? (cs : List Char) : Option Nat :=
  let body := match cs with
    | '+' :: rest => rest
    | _ => cs
  (digits? body).filter (· ≤ maxWord)

/-- An integer that fits a signed 64-bit word, with an optional sign. -/
def integer? (cs : List Char) : Option Int :=
  match cs with
  | '-' :: rest => ((digits? rest).filter (· ≤ halfWord)).map fun n => -(n : Int)
  | '+' :: rest => ((digits? rest).filter (· < halfWord)).map Int.ofNat
  | _ => ((digits? cs).filter (· < halfWord)).map Int.ofNat

/-- A count of one or more, with white space around it allowed. -/
def parsePositive (s : String) : Option Nat :=
  (natural? (trimChars s.toList)).filter (0 < ·)

/-- A signed number with white space around it allowed. -/
def parseInteger (s : String) : Option Int :=
  integer? (trimChars s.toList)

end SourceLint.Text
