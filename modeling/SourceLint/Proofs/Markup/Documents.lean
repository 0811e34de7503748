import SourceLint.Proofs.Markup.Parsing

/-! # Reading whole documents

What stands around the root element is stepped over, and the element itself is read as its
spelling says. So a text that spells an element is parsed to that element.
-/

namespace SourceLint.Markup

open scoped Text.Each

open Position (behind behind_append)
open Text (forall_head?_cons)

/-! ## Around the root -/

/-- Nothing follows, or an element does. -/
def EndsMisc (rest : List Char) : Prop :=
  rest = [] ∨ ∃ first more, rest = '<' :: first :: more ∧ isNameStart first = true

/-- The text is stepped over where nothing or an element follows. -/
def ReadsMisc (cs : List Char) : Prop :=
  ∀ (steps : Nat) (rest : List Char) (p : Position), EndsMisc rest → cs.length ≤ steps →
    readMisc steps ⟨cs ++ rest, p⟩ = .ok ((), ⟨rest, p.after cs⟩)

/-- A text that goes on with another second character does not go on with the mark. -/
theorem not_startsWith {mark : String} {first second : Char} {marks : List Char}
    (is : mark.toList = first :: second :: marks) {c : Char} (other : c ≠ second) (more : List Char)
    (p : Position) : Cursor.startsWith mark ⟨first :: c :: more, p⟩ = false := by
  rw [Cursor.startsWith, is]
  simp [List.isPrefixOf, Ne.symm other]

theorem skipSpaces_cons_of_space {c : Char} (space : isSpace c = true) (cs : List Char)
    (p : Position) :
    (⟨c :: cs, p⟩ : Cursor).skipSpaces = (⟨cs, p.next c⟩ : Cursor).skipSpaces := by
  simp [Cursor.skipSpaces, Cursor.skipWhile, space]

theorem skipSpaces_cons_of_not_space {c : Char} (visible : isSpace c = false) (cs : List Char)
    (p : Position) : (⟨c :: cs, p⟩ : Cursor).skipSpaces = ⟨c :: cs, p⟩ := by
  simp [Cursor.skipSpaces, Cursor.skipWhile, visible]

theorem readsMisc_nil : ReadsMisc [] := by
  intro steps rest p ends _
  rw [List.nil_append, Position.after_nil]
  cases steps with
  | zero => rfl
  | succ steps =>
      rcases ends with rfl | ⟨first, more, rfl, start⟩
      · rfl
      · have bang : first ≠ '!' := ne_of_isNameStart start rfl
        have question : first ≠ '?' := ne_of_isNameStart start rfl
        have comment : Cursor.startsWith "<!--" ⟨'<' :: first :: more, p⟩ = false :=
          not_startsWith rfl bang more p
        have instruction : Cursor.startsWith "<?" ⟨'<' :: first :: more, p⟩ = false :=
          not_startsWith rfl question more p
        simp only [readMisc, skipSpaces_cons_of_not_space (show isSpace '<' = false from rfl),
          comment, instruction]
        rfl

theorem readsMisc_space {c : Char} {more : List Char} (space : isSpace c = true)
    (later : ReadsMisc more) : ReadsMisc (c :: more) := by
  intro steps rest p ends enough
  rw [List.length_cons] at enough
  obtain ⟨steps, rfl⟩ : ∃ fewer, steps = fewer + 1 := ⟨steps - 1, by omega⟩
  have read := later (steps + 1) rest (p.next c) ends (by omega)
  rw [readMisc] at read
  rw [List.cons_append, readMisc, skipSpaces_cons_of_space space, read, Position.after_cons]

theorem readsMisc_comment {cs more : List Char} (comment : Comment cs) (later : ReadsMisc more) :
    ReadsMisc (cs ++ more) := by
  intro steps rest p ends enough
  rw [List.length_append] at enough
  have positive := comment.length_pos
  obtain ⟨steps, rfl⟩ : ∃ fewer, steps = fewer + 1 := ⟨steps - 1, by omega⟩
  have readMore := later steps rest (p.after cs) ends (by omega)
  have read := readComment_append comment (more ++ rest) p
  obtain ⟨tail, split⟩ : ∃ tail, cs ++ (more ++ rest) = '<' :: '!' :: '-' :: '-' :: tail := by
    obtain @⟨text, _, _, _⟩ := comment
    exact ⟨text ++ "-->".toList ++ (more ++ rest), by simp⟩
  rw [List.append_assoc, Position.after_append, ← readMore]
  rw [split] at read ⊢
  have starts : Cursor.startsWith "<!--" ⟨'<' :: '!' :: '-' :: '-' :: tail, p⟩ = true :=
    Cursor.startsWith_append "<!--" tail p
  simp only [readMisc, skipSpaces_cons_of_not_space (show isSpace '<' = false from rfl), starts,
    read, bind, Except.bind, if_true]

/-- What is read as an instruction is stepped over. -/
theorem readsMisc_instruction {cs more : List Char} (begins : ∃ tail, cs = '<' :: '?' :: tail)
    (read : ∀ rest p, readInstruction ⟨cs ++ rest, p⟩ = .ok ((), ⟨rest, p.after cs⟩))
    (later : ReadsMisc more) : ReadsMisc (cs ++ more) := by
  intro steps rest p ends enough
  obtain ⟨tail, rfl⟩ := begins
  rw [List.length_append, List.length_cons] at enough
  obtain ⟨steps, rfl⟩ : ∃ fewer, steps = fewer + 1 := ⟨steps - 1, by omega⟩
  have readMore := later steps rest (p.after ('<' :: '?' :: tail)) ends (by omega)
  have read := read (more ++ rest) p
  rw [List.append_assoc, Position.after_append, ← readMore]
  rw [List.cons_append, List.cons_append] at read ⊢
  have other : Cursor.startsWith "<!--" ⟨'<' :: '?' :: (tail ++ (more ++ rest)), p⟩ = false :=
    not_startsWith rfl (by decide) _ p
  have starts : Cursor.startsWith "<?" ⟨'<' :: '?' :: (tail ++ (more ++ rest)), p⟩ = true :=
    Cursor.startsWith_append "<?" _ p
  simp only [readMisc, skipSpaces_cons_of_not_space (show isSpace '<' = false from rfl), other,
    starts, read, bind, Except.bind, if_true]
  rfl

theorem Misc.reads {cs : List Char} (misc : Misc cs) : ReadsMisc cs := by
  induction misc with
  | nil => exact readsMisc_nil
  | space space rest ih => exact readsMisc_space space ih
  | comment comment rest ih => exact readsMisc_comment comment ih
  | instruction instruction rest ih =>
      refine readsMisc_instruction ?_ (readInstruction_append instruction) ih
      obtain @⟨target, body, _, _, _, _, _⟩ := instruction
      exact ⟨target ++ body ++ "?>".toList, by simp⟩

/-! ## The root -/

theorem SpellsTag.begins {name : String} {attributes : List Attribute} {tag : List Char}
    (spells : SpellsTag name attributes tag) :
    ∃ first more, tag = '<' :: first :: more ∧ isNameStart first = true := by
  obtain @⟨cs, gap, named, _, _, _⟩ := spells
  obtain ⟨first, more, spelled, start, _⟩ := named.isName
  exact ⟨first, more ++ cs ++ gap, by rw [spelled]; rfl, start⟩

theorem SpellsTag.distinct {name : String} {attributes : List Attribute} {tag : List Char}
    (spells : SpellsTag name attributes tag) : (attributes.map (·.name)).Nodup := by
  obtain ⟨_, distinct, _, _⟩ := spells
  exact distinct

/-- An element begins with the `<` of its tag and a name. -/
theorem SpellsElement.begins {before cs : List Char} {e : Element}
    (spells : SpellsElement before cs e) :
    ∃ first more, cs = '<' :: first :: more ∧ isNameStart first = true := by
  cases spells with
  | empty spells =>
      obtain ⟨first, more, rfl, start⟩ := spells.begins
      exact ⟨first, more ++ ['/', '>'], rfl, start⟩
  | @full _ _ _ _ _ body closing spells _ _ =>
      obtain ⟨first, more, rfl, start⟩ := spells.begins
      exact ⟨first, more ++ ['>'] ++ body ++ closing, rfl, start⟩

/-- The root element is read where it is spelled. -/
theorem readRoot_append {before cs : List Char} {root : Element}
    (spells : SpellsElement before cs root) (rest : List Char) :
    readRoot ⟨cs ++ rest, behind before⟩ = .ok (some root, ⟨rest, behind (before ++ cs)⟩) := by
  cases spells with
  | @empty name attributes _ tag spells =>
      have ends : TagEnd.empty ≠ .missing := by decide
      obtain ⟨raws, reads, read⟩ := readOpeningTag_append spells ends rest (behind before)
      have opened := openElement_eq name reads spells.distinct (behind before) .empty
      rw [behind_append, List.append_assoc]
      simp only [TagEnd.mark] at read
      simp only [readRoot, read, opened, bind, Except.bind]
      rfl
  | @full name attributes children _ tag body closing spells inside closes =>
      have ends : TagEnd.open ≠ .missing := by decide
      obtain ⟨raws, reads, read⟩ :=
        readOpeningTag_append spells ends (body ++ (closing ++ rest)) (behind before)
      have opened := openElement_eq name reads spells.distinct (behind before) .open
      simp only [TagEnd.mark, ← behind_append] at read
      have positive := closes.length_pos
      obtain ⟨left, used, content⟩ := readsContent_of_spells inside
        (body ++ (closing ++ rest)).length ⟨⟨"", name⟩, attributes, behind before, [], []⟩ []
        (closing ++ rest) rfl (closes.head? rest) (by simp)
      obtain ⟨left, rfl⟩ : ∃ fewer, left = fewer + 1 :=
        ⟨left - 1, by simp only [List.length_append] at used; omega⟩
      have closed := readContent_close left
        (OpenElement.addAll ⟨⟨"", name⟩, attributes, behind before, [], []⟩ children) [] rest
        (behind (before ++ (tag ++ ['>']) ++ body)) spells.named closes rfl
      rw [OpenElement.close_addAll, ← behind_append] at closed
      have split : tag ++ ['>'] ++ body ++ closing ++ rest =
          tag ++ (['>'] ++ (body ++ (closing ++ rest))) := by simp only [List.append_assoc]
      rw [split]
      simp only [readRoot, read, opened, content, closed, bind, Except.bind]
      simp only [List.append_assoc]
      rfl

/-! ## The declaration -/

theorem readDeclarationGap_append {gap rest : List Char} (gapIs : Spaces gap)
    (visible : ∀ c ∈ rest.head?, isSpace c = false)
    (separated : gap ≠ [] ∨ ∃ more, rest = "?>".toList ++ more) (p : Position) :
    readDeclarationGap ⟨gap ++ rest, p⟩ = .ok ((), ⟨rest, p.after gap⟩) := by
  have skipped := Cursor.skipSpaces_append (p := p) gapIs visible
  cases gap with
  | nil =>
      obtain ⟨more, rfl⟩ := separated.resolve_left fun nonempty => nonempty rfl
      have starts : Cursor.startsWith "?>" ⟨'?' :: '>' :: more, p⟩ = true :=
        Cursor.startsWith_append "?>" more p
      have visible : isSpace '?' = false := rfl
      change readDeclarationGap ⟨'?' :: '>' :: more, p⟩ = .ok ((), ⟨'?' :: '>' :: more, p⟩)
      simp only [readDeclarationGap, visible, starts, if_true]
      rfl
  | cons c gap =>
      have space : isSpace c = true := gapIs c List.mem_cons_self
      simp only [List.cons_append] at skipped ⊢
      simp only [readDeclarationGap, space, skipped, if_true]

theorem readOptionalPair_of_absent {name : String} {c : Cursor}
    (absent : c.startsWith name = false) : readOptionalPair name c = .ok (false, c) := by
  rw [readOptionalPair, absent]
  rfl

/-- After the white space in front of it, a pair of the declaration is read. -/
theorem DeclarationPair.read {name : String} {cs : List Char} (pairIs : DeclarationPair name cs)
    (named : Unprefixed name) (rest : List Char) (p : Position) :
    ∃ more q, readDeclarationGap ⟨cs ++ rest, p⟩ = .ok ((), ⟨name.toList ++ more, q⟩) ∧
      (∃ read, readPair ⟨name.toList ++ more, q⟩ = .ok (read, ⟨rest, p.after cs⟩)) ∧
      readOptionalPair name ⟨name.toList ++ more, q⟩ = .ok (true, ⟨rest, p.after cs⟩) := by
  obtain @⟨gap, before, after, value, quote, separated, gapIs, beforeIs, afterIs, quoted, word⟩ :=
    pairIs
  have visible : ∀ c ∈ (pair name.toList before after quote value ++ rest).head?,
      isSpace c = false := by
    obtain ⟨first, more, spelled, start, _⟩ := named.isName
    rw [pair, spelled]
    intro c is
    cases is
    exact not_isSpace_of_isNameStart start
  have spaced := readDeclarationGap_append gapIs visible (.inl separated) p
  obtain ⟨at_, read⟩ := readPair_append named beforeIs afterIs quoted
    (fun c member => ordinary_of_isNameChar (quote_subset quoted) (word c member)) rest (p.after gap)
  have starts := Cursor.startsWith_append name
    (before ++ '=' :: (after ++ quote :: (value ++ [quote])) ++ rest) (p.after gap)
  refine ⟨before ++ '=' :: (after ++ quote :: (value ++ [quote])) ++ rest, p.after gap, ?_⟩
  have split : name.toList ++ (before ++ '=' :: (after ++ quote :: (value ++ [quote])) ++ rest) =
      pair name.toList before after quote value ++ rest := by
    simp only [pair, List.append_assoc]
  rw [split] at starts ⊢
  rw [← Position.after_append] at read
  refine ⟨?_, ⟨_, read⟩, ?_⟩
  · rw [List.append_assoc, spaced]
  · simp only [readOptionalPair, starts, read, bind, Except.bind, if_true]
    rfl

/-- The end of a declaration is read, from the white space that may come first in it. -/
theorem readDeclaration_end {standalone gap : List Char}
    (standaloneIs : standalone = [] ∨ DeclarationPair "standalone" standalone)
    (gapIs : Spaces gap) (rest : List Char) (p : Position) :
    ∃ c, readDeclarationGap ⟨standalone ++ (gap ++ ("?>".toList ++ rest)), p⟩ = .ok ((), c) ∧
      readOptionalPair "encoding" c = .ok (false, c) ∧
      ∃ found next, readOptionalPair "standalone" c = .ok (found, next) ∧
        next.skipSpaces.expectText "?>" =
          .ok ((), ⟨rest, p.after (standalone ++ (gap ++ "?>".toList))⟩) := by
  have markStops : ∀ c ∈ ("?>".toList ++ rest).head?, isSpace c = false :=
    forall_head?_cons (by rfl) _
  rcases standaloneIs with rfl | pairIs
  · refine ⟨⟨"?>".toList ++ rest, p.after gap⟩, ?_, readOptionalPair_of_absent rfl, false,
      ⟨"?>".toList ++ rest, p.after gap⟩, readOptionalPair_of_absent rfl, ?_⟩
    · exact readDeclarationGap_append gapIs markStops (.inr ⟨rest, rfl⟩) p
    · have skipped := Cursor.skipSpaces_append (p := p.after gap) spaces_nil markStops
      rw [List.nil_append] at skipped
      rw [skipped, Cursor.expectText_append, List.nil_append, Position.after_nil,
        Position.after_append]
  · obtain ⟨more, q, spaced, _, optional⟩ :=
      pairIs.read (by decide) (gap ++ ("?>".toList ++ rest)) p
    refine ⟨_, spaced, readOptionalPair_of_absent rfl, true, _, optional, ?_⟩
    rw [Cursor.skipSpaces_append gapIs markStops, Cursor.expectText_append]
    simp only [Position.after_append]

/-- A declaration is read from its version on, in the order of its pairs. -/
theorem readDeclaration_append {version encoding standalone gap : List Char}
    (versionIs : DeclarationPair "version" version)
    (encodingIs : encoding = [] ∨ DeclarationPair "encoding" encoding)
    (standaloneIs : standalone = [] ∨ DeclarationPair "standalone" standalone)
    (gapIs : Spaces gap) (rest : List Char) (p : Position) :
    readDeclaration ⟨"<?xml".toList ++
        (version ++ (encoding ++ (standalone ++ (gap ++ ("?>".toList ++ rest))))), p⟩ =
      .ok ((), ⟨rest, p.after
        ("<?xml".toList ++ (version ++ (encoding ++ (standalone ++ (gap ++ "?>".toList)))))⟩) := by
  have opened : (⟨"<?xml".toList ++
      (version ++ (encoding ++ (standalone ++ (gap ++ ("?>".toList ++ rest))))), p⟩ : Cursor).advance 5 =
        ⟨version ++ (encoding ++ (standalone ++ (gap ++ ("?>".toList ++ rest)))),
          p.after "<?xml".toList⟩ :=
    Cursor.advance_append "<?xml".toList _ p
  obtain ⟨_, _, spaced, ⟨_, read⟩, _⟩ := versionIs.read (by decide)
    (encoding ++ (standalone ++ (gap ++ ("?>".toList ++ rest)))) (p.after "<?xml".toList)
  have starts := Cursor.startsWith_append "version"
  rcases encodingIs with rfl | encodingIs
  · obtain ⟨c, spacedMore, absent, found, next, optional, ended⟩ := readDeclaration_end standaloneIs
      gapIs rest ((p.after "<?xml".toList).after version)
    rw [List.nil_append] at opened spaced read ⊢
    simp only [readDeclaration, opened, spaced, starts, read, spacedMore, absent, optional, ended,
      bind, Except.bind, pure, Except.pure, Bool.false_eq_true, not_true_eq_false, if_false]
    simp only [Position.after_append, List.nil_append]
  · obtain ⟨_, _, spacedEncoding, _, encoded⟩ := encodingIs.read (by decide)
      (standalone ++ (gap ++ ("?>".toList ++ rest))) ((p.after "<?xml".toList).after version)
    obtain ⟨c, spacedMore, _, found, next, optional, ended⟩ := readDeclaration_end standaloneIs
      gapIs rest (((p.after "<?xml".toList).after version).after encoding)
    simp only [readDeclaration, opened, spaced, starts, read, spacedEncoding, encoded, spacedMore,
      optional, ended, bind, Except.bind, not_true_eq_false, if_false, if_true]
    simp only [Position.after_append]

/-- What a name, white space or the rest of a pair of a declaration is spelled with. -/
def Plain (c : Char) : Prop :=
  isAllowed c = true ∧ c ≠ '?'

theorem plain_of_isNameChar {c : Char} (name : isNameChar c = true) : Plain c := by
  refine ⟨isAllowed_of_isNameChar name, ?_⟩
  rintro rfl
  exact absurd name (by decide)

theorem plain_of_isSpace {c : Char} (space : isSpace c = true) : Plain c := by
  rcases isSpace_iff.mp space with rfl | rfl | rfl | rfl <;> exact ⟨rfl, by decide⟩

theorem DeclarationPair.plain {name : String} {cs : List Char} (pairIs : DeclarationPair name cs)
    (named : Unprefixed name) : ∀ c ∈ cs, Plain c := by
  obtain @⟨gap, before, after, value, quote, _, gapIs, beforeIs, afterIs, quoted, word⟩ := pairIs
  have spaces {gap : List Char} (gapIs : Spaces gap) : ∀ c ∈ gap, Plain c :=
    fun c member => plain_of_isSpace (gapIs c member)
  have names {cs : List Char} (all : ∀ c ∈ cs, isNameChar c = true) : ∀ c ∈ cs, Plain c :=
    fun c member => plain_of_isNameChar (all c member)
  have quotePlain : Plain quote := by
    rcases quoted with rfl | rfl <;> exact ⟨rfl, by decide⟩
  simp only [pair, List.forall_mem_append, List.forall_mem_cons]
  exact ⟨spaces gapIs, ⟨names named.isName.all, spaces beforeIs⟩, ⟨rfl, by decide⟩, spaces afterIs,
    quotePlain, names word, quotePlain, List.forall_mem_nil _⟩

theorem not_infix_of_plain {cs : List Char} (plain : ∀ c ∈ cs, Plain c) :
    ¬ "?>".toList <:+: cs := fun within =>
  (plain '?' (within.subset List.mem_cons_self)).2 rfl

theorem DeclarationPair.begins {name : String} {cs : List Char}
    (pairIs : DeclarationPair name cs) : ∃ space more, cs = space :: more ∧ isSpace space = true := by
  obtain @⟨gap, before, after, value, quote, separated, gapIs, _, _, _, _⟩ := pairIs
  obtain ⟨space, more, rfl⟩ := List.exists_cons_of_ne_nil separated
  exact ⟨space, more ++ pair name.toList before after quote value, rfl, gapIs _ List.mem_cons_self⟩

/-- A declaration is read by the reader of declarations, or else as an instruction: the former
only begins where a blank follows the `xml`. -/
theorem XmlDeclaration.read {declaration : List Char} (declarationIs : XmlDeclaration declaration) :
    (∀ rest p, Cursor.startsWith "<?xml " ⟨declaration ++ rest, p⟩ = true ∧
      readDeclaration ⟨declaration ++ rest, p⟩ = .ok ((), ⟨rest, p.after declaration⟩)) ∨
    (∀ rest p, Cursor.startsWith "<?xml " ⟨declaration ++ rest, p⟩ = false ∧
      readInstruction ⟨declaration ++ rest, p⟩ = .ok ((), ⟨rest, p.after declaration⟩)) := by
  obtain @⟨version, encoding, standalone, gap, versionIs, encodingIs, standaloneIs, gapIs⟩ :=
    declarationIs
  obtain ⟨space, more, begins, isSpace_⟩ := versionIs.begins
  have optional {name : String} {cs : List Char} (named : Unprefixed name)
      (is : cs = [] ∨ DeclarationPair name cs) : ∀ c ∈ cs, Plain c := by
    rcases is with rfl | is
    · exact List.forall_mem_nil _
    · exact is.plain named
  have plain : ∀ c ∈ version ++ encoding ++ standalone ++ gap, Plain c := by
    simp only [List.forall_mem_append]
    exact ⟨⟨⟨versionIs.plain (by decide), optional (by decide) encodingIs⟩,
      optional (by decide) standaloneIs⟩, fun c member => plain_of_isSpace (gapIs c member)⟩
  -- Only before a space does the name begin a declaration; before another blank it is read as that
  -- of an instruction.
  by_cases blank : space = ' '
  · refine .inl fun rest p => ⟨?_, ?_⟩
    · have starts := Cursor.startsWith_append "<?xml "
        (more ++ encoding ++ standalone ++ gap ++ "?>".toList ++ rest) p
      rw [begins, blank]
      simpa using starts
    · have read := readDeclaration_append versionIs encodingIs standaloneIs gapIs rest p
      simpa only [List.append_assoc] using read
  · refine .inr fun rest p => ?_
    have other : Cursor.startsWith "<?xml " ⟨"<?".toList ++ ("xml".toList ++
        (version ++ encoding ++ standalone ++ gap ++ ("?>".toList ++ rest))), p⟩ = false := by
      rw [begins, Cursor.startsWith]
      simp [List.isPrefixOf, Ne.symm blank]
    have named : IsName "xml".toList := ⟨'x', "ml".toList, rfl, rfl, by decide⟩
    have separated : ∀ c ∈ (version ++ encoding ++ standalone ++ gap).head?, isSpace c = true := by
      rw [begins]
      exact forall_head?_cons isSpace_ _
    have read := readInstruction_of named separated (fun c member => (plain c member).1)
      (not_infix_of_plain plain) other
    have split : "<?xml".toList ++ version ++ encoding ++ standalone ++ gap ++ "?>".toList ++ rest =
        "<?".toList ++ ("xml".toList ++
          (version ++ encoding ++ standalone ++ gap ++ ("?>".toList ++ rest))) := by
      simp
    have whole : "<?xml".toList ++ version ++ encoding ++ standalone ++ gap ++ "?>".toList =
        "<?".toList ++ "xml".toList ++ (version ++ encoding ++ standalone ++ gap) ++
          "?>".toList := by
      simp
    rw [split, other, read, whole]
    exact ⟨rfl, rfl⟩

/-! ## Documents -/

/-- The declaration, if the text begins with one, ends there. -/
def Declares (c next : Cursor) : Prop :=
  c.startsWith "<?xml " = true ∧ readDeclaration c = .ok ((), next) ∨
    c.startsWith "<?xml " = false ∧ c = next

/-- Once what is in front of the prolog is read, so is the document. -/
theorem readDocument_of {c : Cursor} {before prolog cs epilog : List Char} {root : Element}
    (declared : Declares c ⟨prolog ++ (cs ++ epilog), behind before⟩)
    (prologIs : ReadsMisc prolog) (spells : SpellsElement (before ++ prolog) cs root)
    (epilogIs : Misc epilog) :
    ∃ next, readDocument c = .ok (some root, next) := by
  obtain ⟨first, more, rfl, start⟩ := spells.begins
  have bang : first ≠ '!' := ne_of_isNameStart start rfl
  have stepped := prologIs (prolog ++ ('<' :: first :: more ++ epilog)).length
    ('<' :: first :: more ++ epilog) (behind before) (.inr ⟨first, more ++ epilog, rfl, start⟩)
    (by simp)
  rw [← behind_append] at stepped
  have doctype : Cursor.startsWith "<!DOCTYPE"
      ⟨'<' :: first :: more ++ epilog, behind (before ++ prolog)⟩ = false :=
    not_startsWith rfl bang (more ++ epilog) _
  have tag : Cursor.startsWith "<" ⟨'<' :: first :: more ++ epilog, behind (before ++ prolog)⟩ =
      true := Cursor.startsWith_append "<" (first :: more ++ epilog) _
  have read := readRoot_append spells epilog
  have around := epilogIs.reads epilog.length [] (behind (before ++ prolog ++ '<' :: first :: more))
    (.inl rfl) (Nat.le_refl _)
  rw [List.append_nil] at around
  refine ⟨⟨[], (behind (before ++ prolog ++ '<' :: first :: more)).after epilog⟩, ?_⟩
  rcases declared with ⟨starts, declared⟩ | ⟨starts, rfl⟩
  · simp only [readDocument, starts, declared, stepped, doctype, tag, read, around, bind, Except.bind,
      Bool.false_eq_true, if_true, if_false]
    rfl
  · simp only [readDocument, starts, stepped, doctype, tag, read, around, bind, Except.bind, pure,
      Except.pure, Bool.false_eq_true, if_true, if_false]
    rfl

/-- Only what a declaration begins begins like one. -/
theorem Misc.not_declaration {prolog : List Char} (misc : Misc prolog) {first : Char}
    (start : isNameStart first = true) (more : List Char) (p : Position) :
    Cursor.startsWith "<?xml " ⟨prolog ++ '<' :: first :: more, p⟩ = false := by
  cases misc with
  | nil => exact not_startsWith rfl (ne_of_isNameStart start rfl) more p
  | @space c _ space _ =>
      have other : c ≠ '<' := by
        rintro rfl
        exact absurd space (by decide)
      rw [List.cons_append, Cursor.startsWith]
      simp [List.isPrefixOf, Ne.symm other]
  | comment comment _ =>
      obtain ⟨_, _, _⟩ := comment
      exact not_startsWith rfl (by decide) _ p
  | @instruction _ later instruction _ =>
      obtain ⟨isName, notDeclaration, separated, _, _⟩ := instruction
      have other := not_startsWith_declaration isName notDeclaration
        (target_stops separated (later ++ '<' :: first :: more)) p
      simpa only [List.append_assoc] using other

/-- What may stand in front of the root begins with white space or with markup, and so does
the root; neither is a byte order mark. -/
theorem Misc.not_mark {prolog : List Char} (misc : Misc prolog) (rest : List Char) (p : Position) :
    Cursor.startsWith "\ufeff" ⟨prolog ++ '<' :: rest, p⟩ = false := by
  cases misc with
  | nil => rfl
  | @space c _ space _ =>
      have other : c ≠ '\ufeff' := by
        rintro rfl
        exact absurd space (by decide)
      rw [List.cons_append, Cursor.startsWith]
      simp [List.isPrefixOf, Ne.symm other]
  | comment comment _ =>
      obtain ⟨_, _, _⟩ := comment
      rfl
  | instruction instruction _ =>
      obtain ⟨_, _, _, _, _⟩ := instruction
      rfl

/-- The byte order mark, if there is one, is stepped over. -/
theorem advance_mark {mark rest : List Char} (markIs : mark = [] ∨ mark = ['\ufeff'])
    (other : ∀ p, Cursor.startsWith "\ufeff" ⟨rest, p⟩ = false) :
    (if (Cursor.ofChars (mark ++ rest)).startsWith "\ufeff" then
        (Cursor.ofChars (mark ++ rest)).advance 1
      else Cursor.ofChars (mark ++ rest)) = ⟨rest, behind mark⟩ := by
  rcases markIs with rfl | rfl
  · have other := other .start
    rw [List.nil_append, Cursor.ofChars, other]
    rfl
  · have starts : Cursor.startsWith "\ufeff" ⟨['\ufeff'] ++ rest, .start⟩ = true :=
      Cursor.startsWith_append "\ufeff" rest .start
    rw [Cursor.ofChars, starts]
    rfl

theorem XmlDeclaration.begins {declaration : List Char}
    (declarationIs : XmlDeclaration declaration) : ∃ tail, declaration = '<' :: '?' :: tail := by
  obtain @⟨version, encoding, standalone, gap, _, _, _, _⟩ := declarationIs
  exact ⟨"xml".toList ++ version ++ encoding ++ standalone ++ gap ++ "?>".toList, by simp⟩

/-- What follows the byte order mark is read as a document. A declaration without a blank after
its `xml` is part of what is read around the root. -/
theorem readDocument_of_spells {mark declaration prolog cs epilog : List Char} {root : Element}
    (declarationIs : declaration = [] ∨ XmlDeclaration declaration) (prologIs : Misc prolog)
    (spells : SpellsElement (mark ++ declaration ++ prolog) cs root) (epilogIs : Misc epilog) :
    ∃ next, readDocument ⟨declaration ++ (prolog ++ (cs ++ epilog)), behind mark⟩ =
      .ok (some root, next) := by
  rcases declarationIs with rfl | declarationIs
  · rw [List.append_nil] at spells
    obtain ⟨first, more, begins, start⟩ := spells.begins
    have undeclared := prologIs.not_declaration start (more ++ epilog) (behind mark)
    have declared : Declares ⟨[] ++ (prolog ++ (cs ++ epilog)), behind mark⟩
        ⟨prolog ++ (cs ++ epilog), behind mark⟩ := by
      rw [begins]
      exact .inr ⟨undeclared, rfl⟩
    exact readDocument_of declared prologIs.reads spells epilogIs
  · rcases declarationIs.read with read | read
    · have read := read (prolog ++ (cs ++ epilog)) (behind mark)
      rw [← behind_append] at read
      exact readDocument_of (.inl read) prologIs.reads spells epilogIs
    · have reads : ReadsMisc (declaration ++ prolog) :=
        readsMisc_instruction declarationIs.begins (fun rest p => (read rest p).2) prologIs.reads
      rw [List.append_assoc] at spells
      rw [← List.append_assoc]
      have undeclared := (read (prolog ++ (cs ++ epilog)) (behind mark)).1
      rw [← List.append_assoc] at undeclared
      exact readDocument_of (.inr ⟨undeclared, rfl⟩) reads spells epilogIs

/-- A text that spells an element is parsed to it. -/
theorem parse_of_spells {text : String} {root : Element} (spells : SpellsDocument text root) :
    parse text = .ok root := by
  obtain @⟨mark, declaration, prolog, cs, epilog, split, markIs, declarationIs, prologIs, spells,
    epilogIs⟩ := spells
  obtain ⟨next, read⟩ := readDocument_of_spells declarationIs prologIs spells epilogIs
  have unmarked (p : Position) :
      Cursor.startsWith "\ufeff" ⟨declaration ++ (prolog ++ (cs ++ epilog)), p⟩ = false := by
    rcases declarationIs with rfl | declarationIs
    · obtain ⟨first, more, begins, _⟩ := spells.begins
      rw [begins]
      exact prologIs.not_mark _ p
    · obtain ⟨tail, rfl⟩ := declarationIs.begins
      rfl
  have marked := advance_mark markIs unmarked
  simp only [List.append_assoc] at split
  simp only [parse, split, marked, read, bind, Except.bind]
  rfl

end SourceLint.Markup
