/-! # Searching

Whether one text stands somewhere in another.
-/

namespace SourceLint.Text

/-- The text `part` stands somewhere in the characters. -/
def holds (part : List Char) : List Char → Bool
  | [] => part.isEmpty
  | c :: cs => part.isPrefixOf (c :: cs) || holds part cs

end SourceLint.Text
