/-! # Characters by their code

A character that a message cannot show is written by its code in hexadecimal,
inside braces. The null character has a spelling of its own.
-/

namespace SourceLint.Text

/-- The lowercase hexadecimal digits of a number. -/
def hex (n : Nat) : String :=
  String.ofList (Nat.toDigits 16 n)

/-- The escape that names a character by its code. -/
def codeEscape (c : Char) : String :=
  "\\u\x7b" ++ hex c.toNat ++ "\x7d"

end SourceLint.Text
