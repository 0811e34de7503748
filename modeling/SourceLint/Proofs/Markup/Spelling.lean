import SourceLint.Markup.Document
import SourceLint.Proofs.Position.Behind
import SourceLint.Proofs.Text.Runs

/-! # The spellings of a document

Which texts spell an element is said here without regard to how they are read: with tags of
either kind, quotes of either kind, white space wherever it may stand, references of any form,
and with text, comments, processing instructions and character data sections between the tags.
An element that is spelled stands where its first `<` does.
-/

namespace SourceLint.Markup

open scoped Text.Each

/-- Nothing but white space. -/
def Spaces (cs : List Char) : Prop :=
  ∀ c ∈ cs, isSpace c = true

/-- Nothing but characters that a document may hold. -/
def Allowed (cs : List Char) : Prop :=
  ∀ c ∈ cs, isAllowed c = true

instance (cs : List Char) : Decidable (Spaces cs) :=
  inferInstanceAs (Decidable (∀ c ∈ cs, isSpace c = true))

instance (cs : List Char) : Decidable (Allowed cs) :=
  inferInstanceAs (Decidable (∀ c ∈ cs, isAllowed c = true))

/-- A name, with or without colons. -/
def IsName (cs : List Char) : Prop :=
  ∃ first more, cs = first :: more ∧ isNameStart first = true ∧ ∀ c ∈ more, isNameChar c = true

/-- A name without a prefix. -/
structure Unprefixed (name : String) : Prop where
  isName : IsName name.toList
  plain : ':' ∉ name.toList

/-! ## Values -/

/-- What a digit stands for in bases up to sixteen. -/
def digitPlace (d : Char) : Nat :=
  "0123456789abcdef".toList.idxOf d.toLower

/-- The code that digits spell in a base. -/
def codeOf (base : Nat) (digits : List Char) : Nat :=
  digits.foldl (fun code d => base * code + digitPlace d) 0

/-- What may stand between an ampersand and its semicolon for a character. -/
inductive Refers : Char → List Char → Prop where
  | quote : Refers '"' "quot".toList
  | ampersand : Refers '&' "amp".toList
  | apostrophe : Refers '\'' "apos".toList
  | less : Refers '<' "lt".toList
  | greater : Refers '>' "gt".toList
  | decimal {c : Char} {digits : List Char} (allowed : isAllowed c = true) (nonempty : digits ≠ [])
      (all : ∀ d ∈ digits, d.isDigit = true) (code : codeOf 10 digits = c.toNat) :
      Refers c ('#' :: digits)
  | hexadecimal {c : Char} {digits : List Char} (allowed : isAllowed c = true)
      (nonempty : digits ≠ []) (all : ∀ d ∈ digits, Reference.isHexDigit d = true)
      (code : codeOf 16 digits = c.toNat) : Refers c ('#' :: 'x' :: digits)

/-- The raw characters denote the value, none of those in `stops` standing for itself. A tab or
the end of a line denotes a space. -/
inductive Denotes (stops : List Char) : List Char → List Char → Prop where
  | nil : Denotes stops [] []
  | literal {c : Char} {raw value : List Char} (allowed : isAllowed c = true) (free : c ∉ stops)
      (plain : c ∉ ['<', '&', '\t', '\n', '\r']) (more : Denotes stops raw value) :
      Denotes stops (c :: raw) (c :: value)
  | tab {raw value : List Char} (more : Denotes stops raw value) :
      Denotes stops ('\t' :: raw) (' ' :: value)
  | lineFeed {raw value : List Char} (more : Denotes stops raw value) :
      Denotes stops ('\n' :: raw) (' ' :: value)
  | carriageReturn {raw value : List Char} (alone : raw.head? ≠ some '\n')
      (more : Denotes stops raw value) : Denotes stops ('\r' :: raw) (' ' :: value)
  | lineEnd {raw value : List Char} (more : Denotes stops raw value) :
      Denotes stops ('\r' :: '\n' :: raw) (' ' :: value)
  | reference {c : Char} {body raw value : List Char} (refers : Refers c body)
      (more : Denotes stops raw value) :
      Denotes stops ('&' :: (body ++ ';' :: raw)) (c :: value)

/-! ## Tags -/

/-- A name, an equals sign with white space around it, and a quoted value. -/
def pair (name before after : List Char) (quote : Char) (raw : List Char) : List Char :=
  name ++ before ++ '=' :: (after ++ quote :: (raw ++ [quote]))

/-- The attribute is spelled so, with the white space in front of it. -/
inductive SpellsAttribute : Attribute → List Char → Prop where
  | intro {name : String} {gap before after raw value : List Char} {quote : Char}
      (separated : gap ≠ []) (gapIs : Spaces gap) (named : Unprefixed name)
      (notDeclaration : name ≠ "xmlns") (beforeIs : Spaces before) (afterIs : Spaces after)
      (quoted : quote = '"' ∨ quote = '\'') (denotes : Denotes [quote] raw value) :
      SpellsAttribute ⟨name, String.ofList value⟩ (gap ++ pair name.toList before after quote raw)

/-- The attributes are spelled so, one after the other. -/
inductive SpellsAttributes : List Attribute → List Char → Prop where
  | nil : SpellsAttributes [] []
  | cons {a : Attribute} {attributes : List Attribute} {cs more : List Char}
      (spells : SpellsAttribute a cs) (others : SpellsAttributes attributes more) :
      SpellsAttributes (a :: attributes) (cs ++ more)

/-- An opening tag without its end. -/
inductive SpellsTag : String → List Attribute → List Char → Prop where
  | intro {name : String} {attributes : List Attribute} {cs gap : List Char}
      (named : Unprefixed name) (distinct : (attributes.map (·.name)).Nodup)
      (spells : SpellsAttributes attributes cs) (gapIs : Spaces gap) :
      SpellsTag name attributes ('<' :: (name.toList ++ cs ++ gap))

/-- The tag that closes an element. -/
inductive ClosingTag (name : String) : List Char → Prop where
  | intro {gap : List Char} (gapIs : Spaces gap) :
      ClosingTag name ('<' :: '/' :: (name.toList ++ gap ++ ['>']))

/-! ## Between the tags -/

inductive Comment : List Char → Prop where
  | intro {text : List Char} (allowed : Allowed text) (single : ¬ "--".toList <:+: text)
      (ends : text.getLast? ≠ some '-') : Comment ("<!--".toList ++ text ++ "-->".toList)

/-- A processing instruction. What follows its target starts with white space. -/
inductive Instruction : List Char → Prop where
  | intro {target body : List Char} (isName : IsName target)
      (notDeclaration : target ≠ "xml".toList)
      (separated : ∀ c ∈ body.head?, isSpace c = true) (allowed : Allowed body)
      (inside : ¬ "?>".toList <:+: body) :
      Instruction ("<?".toList ++ target ++ body ++ "?>".toList)

/-- A character data section. -/
inductive Section : List Char → Prop where
  | intro {data : List Char} (allowed : Allowed data) (inside : ¬ "]]>".toList <:+: data) :
      Section ("<![CDATA[".toList ++ data ++ "]]>".toList)

/-- Characters between two pieces of markup, escaped where they must be. -/
inductive TextRun : List Char → Prop where
  | intro {raw value : List Char} (nonempty : raw ≠ []) (denotes : Denotes [] raw value)
      (inside : ¬ "]]>".toList <:+: raw) : TextRun raw

/-! ## Elements -/

mutual

/-- The element is spelled so where it stands behind the text `before`. -/
inductive SpellsElement : List Char → List Char → Element → Prop where
  | empty {name : String} {attributes : List Attribute} {before tag : List Char}
      (spells : SpellsTag name attributes tag) :
      SpellsElement before (tag ++ ['/', '>']) ⟨name, attributes, [], some (.behind before)⟩
  | full {name : String} {attributes : List Attribute} {children : List Element}
      {before tag body closing : List Char} (spells : SpellsTag name attributes tag)
      (inside : SpellsContent (before ++ (tag ++ ['>'])) body children)
      (closes : ClosingTag name closing) :
      SpellsElement before (tag ++ ['>'] ++ body ++ closing)
        ⟨name, attributes, children, some (.behind before)⟩

/-- The children, with all that stands around them, are spelled so behind the text `before`. -/
inductive SpellsContent : List Char → List Char → List Element → Prop where
  | nil {before : List Char} : SpellsContent before [] []
  | text {children : List Element} {before cs more : List Char} (run : TextRun cs)
      (ends : ∀ c ∈ more.head?, c = '<') (rest : SpellsContent (before ++ cs) more children) :
      SpellsContent before (cs ++ more) children
  | comment {children : List Element} {before cs more : List Char} (comment : Comment cs)
      (rest : SpellsContent (before ++ cs) more children) :
      SpellsContent before (cs ++ more) children
  | instruction {children : List Element} {before cs more : List Char}
      (instruction : Instruction cs) (rest : SpellsContent (before ++ cs) more children) :
      SpellsContent before (cs ++ more) children
  | data {children : List Element} {before cs more : List Char} (data : Section cs)
      (rest : SpellsContent (before ++ cs) more children) :
      SpellsContent before (cs ++ more) children
  | child {child : Element} {children : List Element} {before cs more : List Char}
      (spells : SpellsElement before cs child)
      (rest : SpellsContent (before ++ cs) more children) :
      SpellsContent before (cs ++ more) (child :: children)

end

/-! ## Documents -/

/-- What may stand around the root element. -/
inductive Misc : List Char → Prop where
  | nil : Misc []
  | space {c : Char} {more : List Char} (space : isSpace c = true) (rest : Misc more) :
      Misc (c :: more)
  | comment {cs more : List Char} (comment : Comment cs) (rest : Misc more) : Misc (cs ++ more)
  | instruction {cs more : List Char} (instruction : Instruction cs) (rest : Misc more) :
      Misc (cs ++ more)

/-- A pair of the XML declaration, with the white space in front of it. -/
inductive DeclarationPair (name : String) : List Char → Prop where
  | intro {gap before after value : List Char} {quote : Char} (separated : gap ≠ [])
      (gapIs : Spaces gap) (beforeIs : Spaces before) (afterIs : Spaces after)
      (quoted : quote = '"' ∨ quote = '\'') (word : ∀ c ∈ value, isNameChar c = true) :
      DeclarationPair name (gap ++ pair name.toList before after quote value)

/-- The XML declaration: a version, then an encoding and whether it stands alone, if given. -/
inductive XmlDeclaration : List Char → Prop where
  | intro {version encoding standalone gap : List Char}
      (versionIs : DeclarationPair "version" version)
      (encodingIs : encoding = [] ∨ DeclarationPair "encoding" encoding)
      (standaloneIs : standalone = [] ∨ DeclarationPair "standalone" standalone)
      (gapIs : Spaces gap) :
      XmlDeclaration ("<?xml".toList ++ version ++ encoding ++ standalone ++ gap ++ "?>".toList)

/-- The text spells a document with this root: there may be a byte order mark and a declaration
in front, and comments, processing instructions and white space around the root. -/
inductive SpellsDocument : String → Element → Prop where
  | intro {text : String} {root : Element} {mark declaration prolog cs epilog : List Char}
      (split : text.toList = mark ++ declaration ++ prolog ++ cs ++ epilog)
      (markIs : mark = [] ∨ mark = ['\ufeff'])
      (declarationIs : declaration = [] ∨ XmlDeclaration declaration) (prologIs : Misc prolog)
      (spells : SpellsElement (mark ++ declaration ++ prolog) cs root) (epilogIs : Misc epilog) :
      SpellsDocument text root

end SourceLint.Markup
