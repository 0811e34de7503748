import Mathlib.Data.List.Nodup
import SourceLint.Proofs.Markup.Pieces
import SourceLint.Proofs.Markup.Repositioning

/-! # Writing an element

Every element whose names are plain and whose values hold nothing but allowed characters can be
written: with a tag at each end, and each character of a value as a reference to its code.
-/

namespace SourceLint.Markup

open Element (bare bare_eq_bare_iff mapPositions)
open Position (behind)

/-- The element can be written: its names and those of its attributes have no prefix, no two
attributes of one element have one name, none declares a namespace, and the values hold nothing
but what a document may hold. -/
inductive Element.Writable : Element → Prop where
  | intro {e : Element} (named : Unprefixed e.name)
      (distinct : (e.attributes.map (·.name)).Nodup)
      (attributes : ∀ a ∈ e.attributes,
        Unprefixed a.name ∧ a.name ≠ "xmlns" ∧ Allowed a.value.toList)
      (children : ∀ child ∈ e.children, Writable child) : Writable e

/-! ## The writer -/

/-- A character, by its code. -/
def writeReference (c : Char) : List Char :=
  '&' :: ('#' :: Nat.toDigits 10 c.toNat ++ [';'])

def Attribute.write (a : Attribute) : List Char :=
  ' ' :: pair a.name.toList [] [] '"' (a.value.toList.flatMap writeReference)

namespace Element

mutual

/-- The element between its tags. -/
def write : Element → List Char
  | ⟨name, attributes, children, _⟩ =>
    '<' :: (name.toList ++ attributes.flatMap Attribute.write) ++ ['>'] ++ writeEach children ++
      '<' :: '/' :: (name.toList ++ ['>'])

/-- The elements, one after the other. -/
def writeEach : List Element → List Char
  | [] => []
  | child :: rest => write child ++ writeEach rest

end

end Element

/-! ## What it writes -/

theorem codeOf_toDigits (n : Nat) : codeOf 10 (Nat.toDigits 10 n) = n := by
  have digit {d : Char} (member : d ∈ Nat.toDigits 10 n) : d.isDigit = true :=
    Nat.isDigit_of_mem_toDigits (by decide) (by decide) member
  have same : codeOf 10 (Nat.toDigits 10 n) = Nat.ofDigitChars 10 (Nat.toDigits 10 n) 0 := by
    refine List.foldl_ext _ _ _ fun code d member => ?_
    rw [← digitPlace_eq (isHexDigit_of_isDigit (digit member)), Reference.digitValue,
      if_pos (digit member)]
    rfl
  rw [same, Nat.ofDigitChars_toDigits (by decide) (by decide)]

theorem refers_toDigits {c : Char} (allowed : isAllowed c = true) :
    Refers c ('#' :: Nat.toDigits 10 c.toNat) :=
  .decimal allowed Nat.toDigits_ne_nil
    (fun _ member => Nat.isDigit_of_mem_toDigits (by decide) (by decide) member)
    (codeOf_toDigits c.toNat)

/-- Characters that are no marks denote themselves. -/
theorem Denotes.literals (stops cs : List Char) {raw value : List Char}
    (literal : ∀ c ∈ cs, isAllowed c = true ∧ c ∉ stops ∧ c ∉ ['<', '&', '\t', '\n', '\r'])
    (more : Denotes stops raw value) : Denotes stops (cs ++ raw) (cs ++ value) := by
  induction cs with
  | nil => exact more
  | cons c cs ih =>
      obtain ⟨⟨allowed, free, plain⟩, later⟩ := List.forall_mem_cons.mp literal
      exact .literal allowed free plain (ih later)

theorem denotes_flatMap_writeReference (stops : List Char) {value : List Char}
    (allowed : Allowed value) : Denotes stops (value.flatMap writeReference) value := by
  induction value with
  | nil => exact .nil
  | cons c value ih =>
      obtain ⟨here, later⟩ := List.forall_mem_cons.mp allowed
      have denotes := Denotes.reference (refers_toDigits here) (ih later)
      simpa [writeReference] using denotes

/-- An attribute is spelled with what denotes its value. -/
theorem Attribute.spells_of_denotes (a : Attribute) (gap before after : List Char)
    {raw : List Char} {quote : Char} (separated : gap ≠ []) (gapIs : Spaces gap)
    (named : Unprefixed a.name) (notDeclaration : a.name ≠ "xmlns") (beforeIs : Spaces before)
    (afterIs : Spaces after) (quoted : quote = '"' ∨ quote = '\'')
    (denotes : Denotes [quote] raw a.value.toList) :
    SpellsAttribute a (gap ++ pair a.name.toList before after quote raw) := by
  have spells := SpellsAttribute.intro separated gapIs named notDeclaration beforeIs afterIs quoted
    denotes
  rwa [String.ofList_toList] at spells

theorem Attribute.spells_write {a : Attribute} (named : Unprefixed a.name)
    (notDeclaration : a.name ≠ "xmlns") (allowed : Allowed a.value.toList) :
    SpellsAttribute a a.write :=
  a.spells_of_denotes [' '] [] [] (by decide) (by decide) named notDeclaration spaces_nil spaces_nil
    (.inl rfl) (denotes_flatMap_writeReference _ allowed)

theorem spellsAttributes_write {attributes : List Attribute}
    (each : ∀ a ∈ attributes, Unprefixed a.name ∧ a.name ≠ "xmlns" ∧ Allowed a.value.toList) :
    SpellsAttributes attributes (attributes.flatMap Attribute.write) := by
  induction attributes with
  | nil => exact .nil
  | cons a attributes ih =>
      obtain ⟨⟨named, notDeclaration, allowed⟩, later⟩ := List.forall_mem_cons.mp each
      rw [List.flatMap_cons]
      exact .cons (a.spells_write named notDeclaration allowed) (ih later)

/-- Elements that are written one after the other are the content of the one they are in. -/
theorem exists_spellsContent {children : List Element}
    (inside : ∀ child ∈ children, ∀ before, ∃ e, SpellsElement before child.write e ∧
      e.bare = child.bare) (before : List Char) :
    ∃ elements, SpellsContent before (Element.writeEach children) elements ∧
      elements.map bare = children.map bare := by
  induction children generalizing before with
  | nil => exact ⟨[], .nil, rfl⟩
  | cons child rest ih =>
      obtain ⟨here, later⟩ := List.forall_mem_cons.mp inside
      obtain ⟨e, spells, same⟩ := here before
      obtain ⟨elements, spellsMore, sameMore⟩ := ih later (before ++ child.write)
      exact ⟨e :: elements, .child spells spellsMore,
        by rw [List.map_cons, same, sameMore, List.map_cons]⟩

theorem Element.Writable.exists_spells {e : Element} (writable : e.Writable) :
    ∀ before, ∃ other, SpellsElement before e.write other ∧ other.bare = e.bare := by
  induction writable with
  | @intro e named distinct attributes _ ih =>
      intro before
      have tag : SpellsTag e.name e.attributes _ :=
        .intro named distinct (spellsAttributes_write attributes) spaces_nil
      obtain ⟨children, spells, same⟩ := exists_spellsContent ih
        (before ++ ('<' :: (e.name.toList ++ e.attributes.flatMap Attribute.write ++ []) ++ ['>']))
      refine ⟨⟨e.name, e.attributes, children, some (behind before)⟩, ?_,
        bare_eq_bare_iff.mpr ⟨rfl, rfl, same⟩⟩
      have spelled := SpellsElement.full tag spells (.intro spaces_nil)
      cases e
      simpa only [Element.write, List.append_nil] using spelled

/-- Every element that can be written is spelled by some text. -/
theorem Element.Writable.exists_spelling {e : Element} (writable : e.Writable) :
    ∃ root, SpellsDocument (String.ofList e.write) root ∧ root.bare = e.bare := by
  obtain ⟨root, spells, same⟩ := writable.exists_spells []
  have split : (String.ofList e.write).toList = [] ++ [] ++ [] ++ e.write ++ [] := by
    simp
  exact ⟨root, .intro split (.inl rfl) (.inl rfl) .nil spells .nil, same⟩

end SourceLint.Markup
