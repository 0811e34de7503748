import Mathlib.Data.List.Forall2
import SourceLint.Proofs.Markup.Pieces

/-! # Reading elements and documents

The readers of tags, content and documents follow the spelling of an element, and arrive at the
element with each position in its place.
-/

namespace SourceLint.Markup

open Text (forall_head?_cons)

/-! ## Opening tags -/

/-- A raw attribute says what the attribute says. -/
structure RawAttribute.Reads (raw : RawAttribute) (a : Attribute) : Prop where
  name : raw.name = ⟨"", a.name⟩
  value : raw.value = a.value

/-- How an opening tag is ended. -/
def TagEnd.mark : TagEnd → List Char
  | .empty => ['/', '>']
  | .open => ['>']
  | .missing => []

theorem declarationOf_eq_none {a : RawAttribute} {name : String} (named : a.name = ⟨"", name⟩)
    (notDeclaration : name ≠ "xmlns") (before : List Declaration) :
    declarationOf before a = .ok none := by
  rw [declarationOf, named]
  simp [notDeclaration]

theorem readAttribute_append {name : String} {before after raw value : List Char} {quote : Char}
    (named : Unprefixed name) (beforeIs : Spaces before) (afterIs : Spaces after)
    (quoted : quote = '"' ∨ quote = '\'') (denotes : Denotes [quote] raw value)
    (rest : List Char) (p : Position) :
    readAttribute ⟨pair name.toList before after quote raw ++ rest, p⟩ =
      .ok (⟨⟨"", name⟩, String.ofList value, p⟩,
        ⟨rest, p.after (pair name.toList before after quote raw)⟩) := by
  obtain ⟨at_, read⟩ := readPair_append named beforeIs afterIs quoted
    (denotes.ordinary (quote_subset quoted)) rest p
  simp only [readAttribute, read, bind, Except.bind, denotes.denoted_eq]
  rfl

theorem ne_of_isNameStart {c d : Char} (start : isNameStart c = true)
    (other : isNameStart d = false) : c ≠ d := by
  rintro rfl
  rw [start] at other
  cases other

theorem not_isSpace_of_isNameStart {c : Char} (start : isNameStart c = true) :
    isSpace c = false := by
  rw [← Bool.not_eq_true, isSpace_iff]
  rintro (rfl | rfl | rfl | rfl) <;> exact absurd start (by decide)

/-- Where white space and then a name come next, an attribute is read. -/
theorem readTagRest_name {first : Char} {gap more : List Char} (separated : gap ≠ [])
    (gapIs : Spaces gap) (start : isNameStart first = true) {p : Position} {tag : OpeningTag}
    {a : RawAttribute} {next : Cursor}
    (read : readAttribute ⟨first :: more, p.after gap⟩ = .ok (a, next))
    (plain : declarationOf tag.declarations a = .ok none) (steps : Nat) :
    readTagRest (steps + 1) tag ⟨gap ++ first :: more, p⟩ =
      readTagRest steps { tag with attributes := tag.attributes ++ [a] } next := by
  have slash : first ≠ '/' := ne_of_isNameStart start rfl
  have greater : first ≠ '>' := ne_of_isNameStart start rfl
  have visible : ∀ c ∈ (first :: more).head?, isSpace c = false :=
    forall_head?_cons (not_isSpace_of_isNameStart start) _
  have skipped := Cursor.skipSpaces_append (p := p) gapIs visible
  obtain ⟨space, gap, rfl⟩ := List.exists_cons_of_ne_nil separated
  have spaced : isSpace space = true := gapIs space List.mem_cons_self
  rw [Position.after_cons] at read skipped
  simp only [readTagRest, skipped]
  simp [Cursor.startsWithSpace, spaced, read, plain, bind, Except.bind]

theorem readTagRest_attribute {a : Attribute} {cs : List Char} (spells : SpellsAttribute a cs)
    (steps : Nat) (tag : OpeningTag) (rest : List Char) (p : Position) :
    ∃ raw : RawAttribute, raw.Reads a ∧
      readTagRest (steps + 1) tag ⟨cs ++ rest, p⟩ =
        readTagRest steps { tag with attributes := tag.attributes ++ [raw] } ⟨rest, p.after cs⟩ := by
  obtain ⟨separated, gapIs, named, notDeclaration, beforeIs, afterIs, quoted, denotes⟩ := spells
  rename_i name gap before after raw value quote
  have read := readAttribute_append named beforeIs afterIs quoted denotes rest (p.after gap)
  have plain := declarationOf_eq_none (a := ⟨⟨"", name⟩, String.ofList value, p.after gap⟩) rfl
    notDeclaration tag.declarations
  obtain ⟨first, more, spelled, start, _⟩ := named.isName
  have begins : pair name.toList before after quote raw ++ rest =
      first :: (more ++ before ++ '=' :: (after ++ quote :: (raw ++ [quote])) ++ rest) := by
    simp [pair, spelled]
  rw [begins] at read
  refine ⟨⟨⟨"", name⟩, String.ofList value, p.after gap⟩, ⟨rfl, rfl⟩, ?_⟩
  rw [List.append_assoc, begins, readTagRest_name separated gapIs start read plain,
    Position.after_append]

/-- The end of a tag is read, with white space in front of it. -/
theorem readTagRest_end {gap : List Char} (gapIs : Spaces gap) {ending : TagEnd}
    (ends : ending ≠ .missing) (steps : Nat) (tag : OpeningTag) (rest : List Char) (p : Position) :
    readTagRest (steps + 1) tag ⟨gap ++ (ending.mark ++ rest), p⟩ =
      .ok ({ tag with ending }, ⟨rest, p.after (gap ++ ending.mark)⟩) := by
  have visible : ∀ c ∈ (ending.mark ++ rest).head?, isSpace c = false := by
    cases ending with
    | missing => exact absurd rfl ends
    | empty | «open» => exact forall_head?_cons (by rfl) _
  have skipped := Cursor.skipSpaces_append (p := p) gapIs visible
  have nonempty : (gap ++ (ending.mark ++ rest)).isEmpty = false := by
    cases ending <;> simp_all [TagEnd.mark]
  rw [Position.after_append]
  simp only [readTagRest, skipped, nonempty]
  cases ending with
  | missing => exact absurd rfl ends
  | empty =>
      have slash : (⟨'/' :: '>' :: rest, p.after gap⟩ : Cursor).advance 1 =
          ⟨'>' :: rest, (p.after gap).next '/'⟩ := rfl
      simp only [TagEnd.mark, List.cons_append, List.nil_append, slash, Cursor.expect_cons, bind,
        Except.bind]
      rfl
  | «open» => rfl

/-- The rest of an opening tag is read: its attributes in order, and its end. -/
theorem readTagRest_append {attributes : List Attribute} {cs : List Char}
    (spells : SpellsAttributes attributes cs) {gap : List Char} (gapIs : Spaces gap)
    {ending : TagEnd} (ends : ending ≠ .missing) (rest : List Char) :
    ∀ (spare : Nat) (tag : OpeningTag) (p : Position),
      ∃ raws, List.Forall₂ RawAttribute.Reads raws attributes ∧
        readTagRest (attributes.length + spare + 1) tag ⟨cs ++ (gap ++ (ending.mark ++ rest)), p⟩ =
          .ok ({ tag with attributes := tag.attributes ++ raws, ending },
            ⟨rest, p.after (cs ++ (gap ++ ending.mark))⟩) := by
  induction spells with
  | nil =>
      intro spare tag p
      refine ⟨[], .nil, ?_⟩
      rw [List.nil_append, readTagRest_end gapIs ends, List.append_nil, List.nil_append]
  | @cons a attributes cs more here others ih =>
      intro spare tag p
      obtain ⟨raw, reads, read⟩ := readTagRest_attribute here (attributes.length + spare + 1) tag
        (more ++ (gap ++ (ending.mark ++ rest))) p
      obtain ⟨raws, readsAll, readAll⟩ := ih spare
        { tag with attributes := tag.attributes ++ [raw] } (p.after cs)
      refine ⟨raw :: raws, .cons reads readsAll, ?_⟩
      rw [List.append_assoc, List.length_cons, Nat.add_right_comm _ 1 spare, read, readAll,
        List.append_assoc, List.append_assoc, Position.after_append p cs]
      rfl

theorem SpellsAttributes.length_le {attributes : List Attribute} {cs : List Char}
    (spells : SpellsAttributes attributes cs) : attributes.length ≤ cs.length := by
  induction spells with
  | nil => exact Nat.le_refl 0
  | cons here others ih =>
      obtain ⟨separated, _, _, _, _, _, _, _⟩ := here
      have some_ := List.length_pos_iff.mpr separated
      simp only [List.length_cons, List.length_append]
      omega

/-- The name of a tag ends where its attributes, white space or its end begin. -/
theorem SpellsAttributes.stops {attributes : List Attribute} {cs : List Char}
    (spells : SpellsAttributes attributes cs) {gap : List Char} (gapIs : Spaces gap)
    {ending : TagEnd} (ends : ending ≠ .missing) (rest : List Char) :
    ∀ c ∈ (cs ++ (gap ++ (ending.mark ++ rest))).head?, isNameChar c = false := by
  cases spells with
  | nil =>
      cases ending with
      | missing => exact absurd rfl ends
      | empty => exact name_stops gapIs rfl _
      | «open» => exact name_stops gapIs rfl _
  | cons here others =>
      obtain ⟨separated, spaces, _, _, _, _, _, _⟩ := here
      obtain ⟨space, more, rfl⟩ := List.exists_cons_of_ne_nil separated
      exact forall_head?_cons (not_isNameChar_of_isSpace (spaces space List.mem_cons_self)) _

theorem readOpeningTag_append {name : String} {attributes : List Attribute} {tag : List Char}
    (spells : SpellsTag name attributes tag) {ending : TagEnd} (ends : ending ≠ .missing)
    (rest : List Char) (p : Position) :
    ∃ raws, List.Forall₂ RawAttribute.Reads raws attributes ∧
      readOpeningTag ⟨tag ++ (ending.mark ++ rest), p⟩ =
        .ok (⟨⟨"", name⟩, p, raws, [], ending⟩, ⟨rest, p.after (tag ++ ending.mark)⟩) := by
  obtain @⟨cs, gap, named, _, spells, gapIs⟩ := spells
  have stops := spells.stops gapIs ends rest
  have split : name.toList ++ cs ++ gap ++ (ending.mark ++ rest) =
      name.toList ++ (cs ++ (gap ++ (ending.mark ++ rest))) := by simp only [List.append_assoc]
  have opened :
      (⟨'<' :: (name.toList ++ cs ++ gap) ++ (ending.mark ++ rest), p⟩ : Cursor).advance 1 =
        ⟨name.toList ++ (cs ++ (gap ++ (ending.mark ++ rest))), p.next '<'⟩ := by
    rw [← split]
    rfl
  have read := QualifiedName.read_append named stops (p.next '<')
  obtain ⟨spare, enough⟩ :
      ∃ spare, (cs ++ (gap ++ (ending.mark ++ rest))).length = attributes.length + spare + 1 := by
    have marked : 1 ≤ ending.mark.length := by
      cases ending with
      | missing => exact absurd rfl ends
      | empty | «open» => decide
    have fewer := spells.length_le
    simp only [List.length_append]
    exact ⟨cs.length + (gap.length + (ending.mark.length + rest.length)) - attributes.length - 1,
      by omega⟩
  obtain ⟨raws, reads, readRest⟩ := readTagRest_append spells gapIs ends rest spare
    ⟨⟨"", name⟩, p, [], [], .missing⟩ ((p.next '<').after name.toList)
  refine ⟨raws, reads, ?_⟩
  simp only [readOpeningTag, opened, read, bind, Except.bind, enough, readRest]
  simp only [Position.after_append, Position.after_cons]
  rfl

theorem readClosingTag_append {name : String} (named : Unprefixed name) {closing : List Char}
    (closes : ClosingTag name closing) (rest : List Char) (p : Position) :
    readClosingTag ⟨closing ++ rest, p⟩ = .ok (⟨"", name⟩, ⟨rest, p.after closing⟩) := by
  obtain @⟨gap, gapIs⟩ := closes
  have split : name.toList ++ gap ++ ['>'] ++ rest = name.toList ++ (gap ++ '>' :: rest) := by
    simp only [List.append_assoc, List.singleton_append]
  have opened : (⟨'<' :: '/' :: (name.toList ++ gap ++ ['>']) ++ rest, p⟩ : Cursor).advance 2 =
      ⟨name.toList ++ (gap ++ '>' :: rest), (p.next '<').next '/'⟩ := by
    rw [← split]
    rfl
  have visible : ∀ c ∈ ('>' :: rest).head?, isSpace c = false :=
    forall_head?_cons (by rfl) _
  have stops : ∀ c ∈ (gap ++ '>' :: rest).head?, isNameChar c = false := name_stops gapIs rfl rest
  have read := QualifiedName.read_append named stops ((p.next '<').next '/')
  simp only [readClosingTag, opened, read, bind, Except.bind,
    Cursor.skipSpaces_append gapIs visible, Cursor.expect_cons]
  simp only [Position.after_append, Position.after_cons]
  rfl

/-! ## Opening elements -/

theorem resolveAttributes_eq {raws : List RawAttribute} {attributes : List Attribute}
    (reads : List.Forall₂ RawAttribute.Reads raws attributes)
    (distinct : (attributes.map (·.name)).Nodup) (scope : List Declaration)
    {seen : List (Option String × String)} (fresh : ∀ a ∈ attributes, (none, a.name) ∉ seen) :
    resolveAttributes scope seen raws = .ok attributes := by
  induction reads generalizing seen with
  | nil => rfl
  | @cons raw a raws attributes here others ih =>
      rw [List.map_cons, List.nodup_cons] at distinct
      have plain : attributeNamespace scope raw = .ok none := by
        rw [attributeNamespace, here.name]
        rfl
      have later : resolveAttributes scope ((none, a.name) :: seen) raws = .ok attributes := by
        refine ih distinct.2 fun b member again => ?_
        rcases List.mem_cons.mp again with same | earlier
        · exact distinct.1 (List.mem_map.mpr ⟨b, member, congrArg Prod.snd same⟩)
        · exact fresh b (.tail a member) earlier
      have new : (none, a.name) ∉ seen := fresh a List.mem_cons_self
      simp only [resolveAttributes, plain, here.name, bind, Except.bind, if_neg new, later, here.value]
      rfl

theorem openElement_eq (name : String) {raws : List RawAttribute} {attributes : List Attribute}
    (reads : List.Forall₂ RawAttribute.Reads raws attributes)
    (distinct : (attributes.map (·.name)).Nodup) (p : Position) (ending : TagEnd) :
    openElement [] ⟨⟨"", name⟩, p, raws, [], ending⟩ =
      .ok ⟨⟨"", name⟩, attributes, p, [], []⟩ := by
  have resolved : resolveAttributes [] [] raws = .ok attributes :=
    resolveAttributes_eq reads distinct [] fun _ _ => List.not_mem_nil
  simp only [openElement, List.append_nil, resolved, bind, Except.bind]
  rfl

/-! ## Steps through content -/

section

variable (steps : Nat) (top : OpenElement) (outer : List OpenElement) (rest : List Char)
  (p : Position)

theorem readContent_comment {cs : List Char} (comment : Comment cs) :
    readContent (steps + 1) top outer ⟨cs ++ rest, p⟩ =
      readContent steps top outer ⟨rest, p.after cs⟩ := by
  have read := readComment_append comment rest p
  obtain ⟨more, split⟩ : ∃ more, cs ++ rest = '<' :: '!' :: '-' :: '-' :: more := by
    obtain @⟨text, _, _, _⟩ := comment
    exact ⟨text ++ "-->".toList ++ rest, by simp⟩
  rw [split] at read ⊢
  have starts : Cursor.startsWith "<!--" ⟨'<' :: '!' :: '-' :: '-' :: more, p⟩ = true :=
    Cursor.startsWith_append "<!--" more p
  simp only [readContent, starts, read, bind, Except.bind, if_true]

theorem readContent_section {cs : List Char} (data : Section cs) :
    readContent (steps + 1) top outer ⟨cs ++ rest, p⟩ =
      readContent steps top outer ⟨rest, p.after cs⟩ := by
  have read := readSection_append data rest p
  obtain ⟨more, split⟩ : ∃ more, cs ++ rest = '<' :: '!' :: '[' :: ("CDATA[".toList ++ more) := by
    obtain @⟨data, _, _⟩ := data
    exact ⟨data ++ "]]>".toList ++ rest, by simp⟩
  rw [split] at read ⊢
  have other : Cursor.startsWith "<!--" ⟨'<' :: '!' :: '[' :: ("CDATA[".toList ++ more), p⟩ = false :=
    rfl
  have starts : Cursor.startsWith "<![CDATA[" ⟨'<' :: '!' :: '[' :: ("CDATA[".toList ++ more), p⟩ =
      true := Cursor.startsWith_append "<![CDATA[" more p
  simp only [readContent, other, starts, read, bind, Except.bind, if_true]
  rfl

theorem readContent_instruction {cs : List Char} (instruction : Instruction cs) :
    readContent (steps + 1) top outer ⟨cs ++ rest, p⟩ =
      readContent steps top outer ⟨rest, p.after cs⟩ := by
  have read := readInstruction_append instruction rest p
  obtain ⟨more, split⟩ : ∃ more, cs ++ rest = '<' :: '?' :: more := by
    obtain @⟨target, body, _, _, _, _, _⟩ := instruction
    exact ⟨target ++ body ++ "?>".toList ++ rest, by simp⟩
  rw [split] at read ⊢
  simp only [readContent, read, bind, Except.bind]

theorem readContent_text {cs : List Char} (run : TextRun cs) (ends : ∀ c ∈ rest.head?, c = '<') :
    readContent (steps + 1) top outer ⟨cs ++ rest, p⟩ =
      readContent steps top outer ⟨rest, p.after cs⟩ := by
  have read := readText_append run ends p
  obtain ⟨nonempty, denotes, _⟩ := run
  obtain ⟨first, more, rfl⟩ := List.exists_cons_of_ne_nil nonempty
  have text : first ≠ '<' :=
    (denotes.ordinary (List.nil_subset _) first List.mem_cons_self).2.1
  rw [List.cons_append] at read ⊢
  rw [readContent]
  split
  case h_7 => simp only [read, bind, Except.bind]
  case h_1 same => cases same
  all_goals
    rename_i same
    exact absurd (List.cons.inj same).1 text

/-- Where a name comes after the `<`, an opening tag is read. -/
theorem readContent_name {first : Char} (start : isNameStart first = true) {more : List Char}
    {tag : OpeningTag} {next : Cursor} {e : OpenElement}
    (read : readOpeningTag ⟨'<' :: first :: more, p⟩ = .ok (tag, next))
    (opened : openElement top.scope tag = .ok e) (ends : tag.ending ≠ .missing) :
    readContent (steps + 1) top outer ⟨'<' :: first :: more, p⟩ =
      if tag.ending = .empty then readContent steps (top.add e.close) outer next
      else readContent steps e (top :: outer) next := by
  rw [readContent]
  split
  case h_6 =>
      simp only [read, bind, Except.bind]
      cases ending : tag.ending with
      | missing => exact absurd ending ends
      | empty => simp only [opened, if_true]
      | «open» => simp [opened]
  case h_1 same => cases same
  case h_2 same => cases same
  case h_7 other => exact absurd rfl (other _)
  all_goals
    rename_i same
    obtain ⟨rfl, _⟩ := List.cons.inj (List.cons.inj same).2
    exact absurd start (by decide)

variable {top} in
/-- An opening tag adds an element without content, or opens one for the content that follows. -/
theorem readContent_tag {name : String} {attributes : List Attribute} {tag : List Char}
    (spells : SpellsTag name attributes tag) {ending : TagEnd} (ends : ending ≠ .missing)
    (plain : top.scope = []) :
    readContent (steps + 1) top outer ⟨tag ++ (ending.mark ++ rest), p⟩ =
      if ending = .empty then
        readContent steps (top.add ⟨name, attributes, [], some p⟩) outer
          ⟨rest, p.after (tag ++ ending.mark)⟩
      else
        readContent steps ⟨⟨"", name⟩, attributes, p, [], []⟩ (top :: outer)
          ⟨rest, p.after (tag ++ ending.mark)⟩ := by
  obtain ⟨raws, reads, read⟩ := readOpeningTag_append spells ends rest p
  obtain @⟨cs, gap, named, distinct, _, _⟩ := spells
  obtain ⟨first, more, spelled, start, _⟩ := named.isName
  have opened : openElement top.scope ⟨⟨"", name⟩, p, raws, [], ending⟩ =
      .ok ⟨⟨"", name⟩, attributes, p, [], []⟩ := by
    rw [plain, openElement_eq name reads distinct]
  have split : '<' :: (name.toList ++ cs ++ gap) ++ (ending.mark ++ rest) =
      '<' :: first :: (more ++ cs ++ gap ++ (ending.mark ++ rest)) := by
    rw [spelled]
    rfl
  rw [split] at read ⊢
  exact readContent_name steps top outer p start read opened ends

theorem readContent_close {name : String} (named : Unprefixed name) {closing : List Char}
    (closes : ClosingTag name closing) (isTop : top.name = ⟨"", name⟩) :
    readContent (steps + 1) top outer ⟨closing ++ rest, p⟩ =
      match outer with
      | [] => .ok (top.close, ⟨rest, p.after closing⟩)
      | parent :: outer => readContent steps (parent.add top.close) outer ⟨rest, p.after closing⟩ := by
  have read := readClosingTag_append named closes rest p
  obtain ⟨more, split⟩ : ∃ more, closing ++ rest = '<' :: '/' :: more := by
    obtain @⟨gap, _⟩ := closes
    exact ⟨name.toList ++ gap ++ ['>'] ++ rest, by simp⟩
  rw [split] at read ⊢
  simp only [readContent, read, bind, Except.bind, isTop, ne_eq, not_true_eq_false, if_false]
  cases outer <;> rfl

end

/-! ## Content -/

/-- The open element with more children. -/
def OpenElement.addAll (e : OpenElement) (children : List Element) : OpenElement :=
  { e with children := children.reverse ++ e.children }

theorem OpenElement.addAll_cons (e : OpenElement) (child : Element) (children : List Element) :
    e.addAll (child :: children) = (e.add child).addAll children := by
  simp [addAll, add]

/-- An element that was opened is closed with the children added since. -/
theorem OpenElement.close_addAll (name : String) (attributes : List Attribute) (p : Position)
    (children : List Element) :
    (OpenElement.addAll ⟨⟨"", name⟩, attributes, p, [], []⟩ children).close =
      ⟨name, attributes, children, some p⟩ := by
  simp [close, addAll]

theorem SpellsTag.named {name : String} {attributes : List Attribute} {tag : List Char}
    (spells : SpellsTag name attributes tag) : Unprefixed name := by
  obtain ⟨named, _, _, _⟩ := spells
  exact named

theorem Comment.length_pos {cs : List Char} (comment : Comment cs) : 0 < cs.length := by
  obtain ⟨_, _, _⟩ := comment
  simp

theorem Instruction.length_pos {cs : List Char} (instruction : Instruction cs) : 0 < cs.length := by
  obtain ⟨_, _, _, _, _⟩ := instruction
  simp

theorem Section.length_pos {cs : List Char} (data : Section cs) : 0 < cs.length := by
  obtain ⟨_, _⟩ := data
  simp

theorem TextRun.length_pos {cs : List Char} (run : TextRun cs) : 0 < cs.length := by
  obtain ⟨nonempty, _, _⟩ := run
  exact List.length_pos_iff.mpr nonempty

theorem ClosingTag.length_pos {name : String} {closing : List Char}
    (closes : ClosingTag name closing) : 0 < closing.length := by
  obtain ⟨_⟩ := closes
  simp

theorem ClosingTag.head? {name : String} {closing : List Char} (closes : ClosingTag name closing)
    (rest : List Char) : (closing ++ rest).head? = some '<' := by
  obtain ⟨_⟩ := closes
  rfl

open Position (behind behind_append)

/-- Where the text `cs` comes next, behind `before`, the reader gets past it in no more steps
than it has characters, and the element is a child of the one it stands in. -/
def ReadsElement (before cs : List Char) (e : Element) : Prop :=
  ∀ (steps : Nat) (top : OpenElement) (outer : List OpenElement) (rest : List Char),
    top.scope = [] → cs.length ≤ steps → ∃ left, steps ≤ left + cs.length ∧
      readContent steps top outer ⟨cs ++ rest, behind before⟩ =
        readContent left (top.add e) outer ⟨rest, behind (before ++ cs)⟩

/-- The same for what stands between two tags. -/
def ReadsContent (before cs : List Char) (children : List Element) : Prop :=
  ∀ (steps : Nat) (top : OpenElement) (outer : List OpenElement) (rest : List Char),
    top.scope = [] → rest.head? = some '<' → cs.length ≤ steps → ∃ left, steps ≤ left + cs.length ∧
      readContent steps top outer ⟨cs ++ rest, behind before⟩ =
        readContent left (top.addAll children) outer ⟨rest, behind (before ++ cs)⟩

section

variable {name : String} {attributes : List Attribute} {children : List Element}
  {before tag body closing cs more : List Char}

theorem readsElement_empty (spells : SpellsTag name attributes tag) :
    ReadsElement before (tag ++ ['/', '>']) ⟨name, attributes, [], some (behind before)⟩ := by
  intro steps top outer rest plain enough
  rw [List.length_append] at enough
  obtain ⟨left, rfl⟩ : ∃ left, steps = left + 1 :=
    ⟨steps - 1, by simp only [List.length_cons] at enough; omega⟩
  have ends : TagEnd.empty ≠ .missing := by decide
  have read := readContent_tag left outer rest (behind before) spells ends plain
  refine ⟨left, by simp, ?_⟩
  rw [behind_append, List.append_assoc]
  exact read

theorem readsElement_full (spells : SpellsTag name attributes tag)
    (inside : ReadsContent (before ++ (tag ++ ['>'])) body children)
    (closes : ClosingTag name closing) :
    ReadsElement before (tag ++ ['>'] ++ body ++ closing)
      ⟨name, attributes, children, some (behind before)⟩ := by
  intro steps top outer rest plain enough
  have positive := closes.length_pos
  simp only [List.length_append, List.length_singleton] at enough ⊢
  obtain ⟨steps, rfl⟩ : ∃ fewer, steps = fewer + 1 := ⟨steps - 1, by omega⟩
  have ends : TagEnd.open ≠ .missing := by decide
  have opens :=
    readContent_tag steps outer (body ++ (closing ++ rest)) (behind before) spells ends plain
  obtain ⟨left, used, reads⟩ := inside steps ⟨⟨"", name⟩, attributes, behind before, [], []⟩
    (top :: outer) (closing ++ rest) rfl (closes.head? rest) (by omega)
  obtain ⟨left, rfl⟩ : ∃ fewer, left = fewer + 1 := ⟨left - 1, by omega⟩
  refine ⟨left, by omega, ?_⟩
  have split : tag ++ ['>'] ++ body ++ closing ++ rest =
      tag ++ (TagEnd.open.mark ++ (body ++ (closing ++ rest))) := by
    simp only [List.append_assoc, TagEnd.mark]
  have opened : (behind before).after (tag ++ TagEnd.open.mark) = behind (before ++ (tag ++ ['>'])) :=
    (behind_append _ _).symm
  have closed := readContent_close left
    (OpenElement.addAll ⟨⟨"", name⟩, attributes, behind before, [], []⟩ children) (top :: outer) rest
    (behind (before ++ (tag ++ ['>']) ++ body)) spells.named closes rfl
  rw [OpenElement.close_addAll, ← behind_append] at closed
  rw [split, opens, if_neg (by decide), opened, reads, closed]
  simp only [List.append_assoc]

theorem readsContent_nil : ReadsContent before [] [] := by
  intro steps top outer rest _ _ _
  refine ⟨steps, Nat.le_add_right _ _, ?_⟩
  rw [List.append_nil]
  rfl

/-- A piece that adds nothing is stepped over, and what follows it is read as before. -/
theorem readsContent_piece (positive : 0 < cs.length)
    (step : ∀ steps top outer rest p, rest.head? = some '<' →
      readContent (steps + 1) top outer ⟨cs ++ (more ++ rest), p⟩ =
        readContent steps top outer ⟨more ++ rest, p.after cs⟩)
    (later : ReadsContent (before ++ cs) more children) :
    ReadsContent before (cs ++ more) children := by
  intro steps top outer rest plain next enough
  rw [List.length_append] at enough ⊢
  obtain ⟨steps, rfl⟩ : ∃ fewer, steps = fewer + 1 := ⟨steps - 1, by omega⟩
  obtain ⟨left, used, read⟩ := later steps top outer rest plain next (by omega)
  refine ⟨left, by omega, ?_⟩
  rw [List.append_assoc, step _ _ _ _ _ next, ← behind_append, read, List.append_assoc]

theorem readsContent_child {child : Element} (reads : ReadsElement before cs child)
    (later : ReadsContent (before ++ cs) more children) :
    ReadsContent before (cs ++ more) (child :: children) := by
  intro steps top outer rest plain next enough
  rw [List.length_append] at enough ⊢
  obtain ⟨middle, used, read⟩ := reads steps top outer (more ++ rest) plain (by omega)
  obtain ⟨left, usedMore, readMore⟩ := later middle (top.add child) outer rest plain next (by omega)
  refine ⟨left, by omega, ?_⟩
  rw [List.append_assoc, read, readMore, OpenElement.addAll_cons, List.append_assoc]

end

/-- Text ends where a tag begins, of what is between the same two tags or the next of these. -/
theorem head?_append_of_ends {more rest : List Char} (ends : ∀ c ∈ more.head?, c = '<')
    (next : rest.head? = some '<') : ∀ c ∈ (more ++ rest).head?, c = '<' := by
  intro c first
  cases more with
  | nil => exact (Option.some.inj (next.symm.trans first)).symm
  | cons d more => exact ends c first

mutual

theorem readsElement_of_spells {before cs : List Char} {e : Element} :
    SpellsElement before cs e → ReadsElement before cs e
  | .empty spells => readsElement_empty spells
  | .full spells inside closes => readsElement_full spells (readsContent_of_spells inside) closes

theorem readsContent_of_spells {before cs : List Char} {children : List Element} :
    SpellsContent before cs children → ReadsContent before cs children
  | .nil => readsContent_nil
  | .text run ends more =>
      readsContent_piece run.length_pos
        (fun steps top outer _ p next => readContent_text steps top outer _ p run
          (head?_append_of_ends ends next))
        (readsContent_of_spells more)
  | .comment comment more =>
      readsContent_piece comment.length_pos
        (fun steps top outer _ p _ => readContent_comment steps top outer _ p comment)
        (readsContent_of_spells more)
  | .instruction instruction more =>
      readsContent_piece instruction.length_pos
        (fun steps top outer _ p _ => readContent_instruction steps top outer _ p instruction)
        (readsContent_of_spells more)
  | .data data more =>
      readsContent_piece data.length_pos
        (fun steps top outer _ p _ => readContent_section steps top outer _ p data)
        (readsContent_of_spells more)
  | .child spells more =>
      readsContent_child (readsElement_of_spells spells) (readsContent_of_spells more)

end

end SourceLint.Markup
