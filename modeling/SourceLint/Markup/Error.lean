import SourceLint.Markup.Charset
import SourceLint.Position
import SourceLint.Text.Quoted

/-! # What can be wrong with markup

Each cause carries what its message shows. Causes about the document as a whole
have no place of their own and are reported at the first character.
-/

namespace SourceLint.Markup

/-- Why a text is no document. -/
inductive Error where
  /-- The reserved prefix `xml` is declared with another namespace. -/
  | reservedPrefixRebound (at_ : Position)
  /-- Another prefix, or none, is declared with the namespace of `xml`. -/
  | reservedNamespaceReused (at_ : Position)
  /-- The namespace of declarations is declared. -/
  | declarationNamespaceUsed (at_ : Position)
  /-- An element is prefixed with `xmlns`. -/
  | declarationPrefixOnElement (at_ : Position)
  /-- A tag declares a prefix twice. -/
  | namespaceTwice (name : String) (at_ : Position)
  /-- A prefix is used that no declaration in scope gives. -/
  | unknownNamespace (name : String) (at_ : Position)
  /-- A closing tag names another element than the open one. -/
  | closeMismatch (expected found : String) (at_ : Position)
  /-- A reference to an entity that is not predefined. -/
  | unknownEntity (name : String) (at_ : Position)
  /-- An ampersand that starts no reference. -/
  | badReference (at_ : Position)
  /-- A tag has two attributes of one name. -/
  | attributeTwice (name : String) (at_ : Position)
  /-- There is no element. -/
  | noRoot
  /-- The text ends inside an element. -/
  | unclosedRoot
  /-- A declaration that does not start the document. -/
  | lateDeclaration (at_ : Position)
  /-- A document type declaration. -/
  | doctype
  /-- No name where one is needed. -/
  | badName (at_ : Position)
  /-- A character that no document may hold. -/
  | badCharacter (c : Char) (at_ : Position)
  /-- Another character where only `expected` can stand. -/
  | expectedCharacter (expected found : Char) (at_ : Position)
  /-- Another character where one of a kind must stand. -/
  | expectedKind (kind : String) (found : Char) (at_ : Position)
  /-- Another text where `expected` must stand. -/
  | expectedText (expected : String) (at_ : Position)
  /-- A comment with a double hyphen inside, or a hyphen at its end. -/
  | badComment (at_ : Position)
  /-- Text with the end mark of a character data section in it. -/
  | sectionEndInText (at_ : Position)
  /-- Nothing that can stand here. -/
  | unknownToken (at_ : Position)
  /-- The text ends too early. -/
  | endOfText
  deriving Repr, DecidableEq, BEq

namespace Error

/-- A character between quotes, by its code: only invisible ones are ever refused. -/
def showRefused (c : Char) : String :=
  "'" ++ (if c.toNat = 0 then "\\0" else Text.codeEscape c) ++ "'"

/-- Where the text went wrong. -/
def position : Error → Position
  | reservedPrefixRebound p => p
  | reservedNamespaceReused p => p
  | declarationNamespaceUsed p => p
  | declarationPrefixOnElement p => p
  | namespaceTwice _ p => p
  | unknownNamespace _ p => p
  | closeMismatch _ _ p => p
  | unknownEntity _ p => p
  | badReference p => p
  | attributeTwice _ p => p
  | noRoot => .start
  | unclosedRoot => .start
  | lateDeclaration p => p
  | doctype => .start
  | badName p => p
  | badCharacter _ p => p
  | expectedCharacter _ _ p => p
  | expectedKind _ _ p => p
  | expectedText _ p => p
  | badComment p => p
  | sectionEndInText p => p
  | unknownToken p => p
  | endOfText => .start

/-- The cause in words. -/
def message : Error → String
  | reservedPrefixRebound p =>
    "'xml' namespace prefix mapped to wrong URI at " ++ p.render
  | reservedNamespaceReused p =>
    "the 'xml' namespace URI is used for not 'xml' prefix at " ++ p.render
  | declarationNamespaceUsed p =>
    "the 'xmlns' URI is used at " ++ p.render ++ ", but it must not be declared"
  | declarationPrefixOnElement p =>
    "the 'xmlns' prefix is used at " ++ p.render ++ ", but it must not be"
  | namespaceTwice name p => "namespace '" ++ name ++ "' at " ++ p.render ++ " is already defined"
  | unknownNamespace name p => "an unknown namespace prefix '" ++ name ++ "' at " ++ p.render
  | closeMismatch expected found p =>
    "expected '" ++ expected ++ "' tag, not '" ++ found ++ "' at " ++ p.render
  | unknownEntity name p => "unknown entity reference '" ++ name ++ "' at " ++ p.render
  | badReference p => "malformed entity reference at " ++ p.render
  | attributeTwice name p => "attribute '" ++ name ++ "' at " ++ p.render ++ " is already defined"
  | noRoot => "the document does not have a root node"
  | unclosedRoot => "the root node was opened but never closed"
  | lateDeclaration p => "unexpected XML declaration at " ++ p.render
  | doctype => "XML with DTD detected"
  | badName p => "invalid name token at " ++ p.render
  | badCharacter c p => "a non-XML character " ++ showRefused c ++ " found at " ++ p.render
  | expectedCharacter expected found p =>
    "expected '" ++ expected.toString ++ "' not '" ++ (leadByte found).toString ++ "' at " ++
      p.render
  | expectedKind kind found p =>
    "expected " ++ kind ++ " not '" ++ (leadByte found).toString ++ "' at " ++ p.render
  | expectedText expected p => "expected '" ++ expected ++ "' at " ++ p.render
  | badComment p => "comment at " ++ p.render ++ " contains '--'"
  | sectionEndInText p =>
    "']]>' at " ++ p.render ++ " is not allowed inside a character data"
  | unknownToken p => "unknown token at " ++ p.render
  | endOfText => "unexpected end of stream"

end Error

end SourceLint.Markup
