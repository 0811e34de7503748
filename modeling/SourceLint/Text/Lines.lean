/-! # Lines

A text is cut into lines in two ways. *Pieces* keep their line feed, so they
concatenate to the text and carry its byte offsets. *Lines* lose the line feed,
and with it one carriage return before it. Widths count characters, with each
tab counting as a given number of columns, and count in machine words.
-/

namespace SourceLint.Text

/-- The text cut after each line feed, each piece keeping its own. -/
def pieces : List Char → List (List Char)
  | [] => []
  | c :: cs =>
    if c = '\n' then [c] :: pieces cs
    else match pieces cs with
      | [] => [[c]]
      | p :: ps => (c :: p) :: ps

/-- A piece without its line feed. -/
def dropLineFeed (piece : List Char) : List Char :=
  if piece.getLast? = some '\n' then piece.dropLast else piece

/-- A piece without its line end: the line feed, and a carriage return before it. -/
def dropLineEnd (piece : List Char) : List Char :=
  if piece.getLast? = some '\n' then
    let body := piece.dropLast
    if body.getLast? = some '\r' then body.dropLast else body
  else piece

/-- The lines of a text, without their line ends. -/
def lines (cs : List Char) : List (List Char) :=
  (pieces cs).map dropLineEnd

/-- The columns that one character takes. -/
def columns (tabWidth : Nat) (c : Char) : Nat :=
  if c = '\t' then tabWidth else 1

/-- The columns that a line takes, added up in a machine word. -/
def width (tabWidth : Nat) (line : List Char) : Nat :=
  (line.foldl (fun n c => n + UInt64.ofNat (columns tabWidth c)) 0).toNat

/-- The length of a text in UTF-8 bytes. -/
def byteLength (cs : List Char) : Nat :=
  cs.foldl (fun n c => n + c.utf8Size) 0

/-- The byte offset that a zero-based line and column name among `ps`: the start
of that line plus the column, cut at the line's end, or the end of the text when
there is no such line. -/
def offsetIn : List (List Char) → Nat → Nat → Nat
  | [], _, _ => 0
  | p :: _, 0, column => min column (byteLength (dropLineFeed p))
  | p :: ps, line + 1, column => byteLength p + offsetIn ps line column

/-- The byte offset of a zero-based line and column of a text. -/
def offsetOf (cs : List Char) (line column : Nat) : Nat :=
  offsetIn (pieces cs) line column

end SourceLint.Text
