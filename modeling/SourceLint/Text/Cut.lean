/-! # Cutting a text

A text cut at each occurrence of a character. There is always one part more than there
are cuts, so an empty text has one empty part.
-/

namespace SourceLint.Text

/-- The parts between the occurrences of `mark`. -/
def cutChars (mark : Char) : List Char → List (List Char)
  | [] => [[]]
  | c :: cs =>
    if c = mark then [] :: cutChars mark cs
    else match cutChars mark cs with
      | [] => [[c]]
      | part :: parts => (c :: part) :: parts

/-- The parts between the occurrences of `mark`. -/
def cut (mark : Char) (s : String) : List String :=
  (cutChars mark s.toList).map String.ofList

end SourceLint.Text
