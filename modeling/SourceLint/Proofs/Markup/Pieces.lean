import Mathlib.Data.List.Basic
import Mathlib.Data.List.TakeDrop
import SourceLint.Proofs.Markup.Spelling
import SourceLint.Proofs.Text.Runs

/-! # Reading the pieces of a document

Each reader takes off the front of a text what its piece is spelled with, and leaves what
follows. What may follow is part of each statement: a name ends where no character of names
comes next, a run of text where a tag begins.
-/

namespace SourceLint.Markup

open scoped Text.Each

open Text (forall_head?_cons takeWhile_append_run dropWhile_append_run Unbordered)

/-! ## Characters -/

theorem isSpace_iff {c : Char} : isSpace c = true ↔ c = ' ' ∨ c = '\t' ∨ c = '\n' ∨ c = '\r' := by
  simp only [isSpace, Bool.or_eq_true, decide_eq_true_eq, or_assoc]

theorem spaces_nil : Spaces [] :=
  List.forall_mem_nil _

theorem isNameChar_of_isNameStart {c : Char} (start : isNameStart c = true) : isNameChar c = true := by
  simp only [isNameChar, start, Bool.true_or]

theorem isAllowed_of_isNameChar {c : Char} (name : isNameChar c = true) : isAllowed c = true := by
  have control : ∀ n : Fin 0x20, isNameChar (Char.ofNat n) = false := by decide
  have never {n : Nat} (other : isNameChar (Char.ofNat n) = false) : c.toNat ≠ n := by
    rintro rfl
    rw [Char.ofNat_toNat, name] at other
    cases other
  rw [isAllowed, if_neg fun low => never (control ⟨c.toNat, low⟩) rfl, Bool.and_eq_true,
    decide_eq_true_eq, decide_eq_true_eq]
  exact ⟨never (by decide), never (by decide)⟩

theorem not_isNameChar_of_isSpace {c : Char} (space : isSpace c = true) : isNameChar c = false := by
  rcases isSpace_iff.mp space with rfl | rfl | rfl | rfl <;> rfl

namespace Cursor

variable {cs rest : List Char} {p : Position}

theorem advance_append (cs rest : List Char) (p : Position) :
    (⟨cs ++ rest, p⟩ : Cursor).advance cs.length = ⟨rest, p.after cs⟩ := by
  rw [advance, List.drop_left, List.take_left]

theorem skipWhile_append {f : Char → Bool} (all : ∀ c ∈ cs, f c = true)
    (stops : ∀ c ∈ rest.head?, f c = false) :
    (⟨cs ++ rest, p⟩ : Cursor).skipWhile f = ⟨rest, p.after cs⟩ := by
  rw [skipWhile, takeWhile_append_run all stops, dropWhile_append_run all stops]

theorem skipSpaces_append (spaces : Spaces cs) (stops : ∀ c ∈ rest.head?, isSpace c = false) :
    (⟨cs ++ rest, p⟩ : Cursor).skipSpaces = ⟨rest, p.after cs⟩ :=
  skipWhile_append spaces stops

/-- Allowed characters are run through up to where the run stops. -/
theorem run_append {stop : List Char → Bool} (allowed : Allowed cs)
    (goes : ∀ tail, tail <:+ cs → tail ≠ [] → stop (tail ++ rest) = false)
    (stops : rest = [] ∨ stop rest = true ∧ ∀ c ∈ rest.head?, isAllowed c = true) :
    run stop ⟨cs ++ rest, p⟩ = .ok (cs, ⟨rest, p.after cs⟩) := by
  rw [run]
  induction cs generalizing p with
  | nil =>
      rcases stops with rfl | ⟨stops, first⟩
      · rfl
      · cases rest with
        | nil => rfl
        | cons c rest => simp [runFrom, stops, first c rfl, Position.after]
  | cons c cs ih =>
      have later := @ih (p.next c) (fun d member => allowed d (.tail _ member)) (fun tail suffix =>
        goes tail (suffix.trans (List.suffix_cons c cs)))
      have here := goes (c :: cs) (List.suffix_refl _) (List.cons_ne_nil _ _)
      simp only [List.cons_append] at here later ⊢
      simp only [runFrom, allowed c List.mem_cons_self, here, later]
      rfl

end Cursor

/-! ## Names -/

theorem IsName.all {cs : List Char} (isName : IsName cs) : ∀ c ∈ cs, isNameChar c = true := by
  obtain ⟨first, more, rfl, start, all⟩ := isName
  exact List.forall_mem_cons.mpr ⟨isNameChar_of_isNameStart start, all⟩

theorem unprefixed_iff {name : String} : Unprefixed name ↔
    name.toList.head?.any isNameStart = true ∧ ∀ c ∈ name.toList, isNameChar c = true ∧ c ≠ ':' := by
  constructor
  · rintro ⟨isName, plain⟩
    have all := isName.all
    obtain ⟨first, more, split, start, _⟩ := isName
    refine ⟨by rw [split]; exact start, fun c member => ⟨all c member, ?_⟩⟩
    rintro rfl
    exact plain member
  · rintro ⟨start, all⟩
    refine ⟨?_, fun member => (all ':' member).2 rfl⟩
    cases split : name.toList with
    | nil =>
        rw [split] at start
        cases start
    | cons first more =>
        rw [split] at start all
        exact ⟨first, more, rfl, start, fun c member => (all c (.tail _ member)).1⟩

instance (name : String) : Decidable (Unprefixed name) :=
  decidable_of_iff _ unprefixed_iff.symm

/-- A name is read where no character of names comes next. -/
theorem Cursor.name_append {cs rest : List Char} (isName : IsName cs)
    (stops : ∀ c ∈ rest.head?, isNameChar c = false) (p : Position) :
    Cursor.name ⟨cs ++ rest, p⟩ = .ok (cs, ⟨rest, p.after cs⟩) := by
  obtain ⟨first, more, rfl, start, all⟩ := isName
  have skipped : (⟨more ++ rest, p.next first⟩ : Cursor).skipWhile isNameChar =
      ⟨rest, (p.next first).after more⟩ := skipWhile_append all stops
  simp only [Cursor.name, List.cons_append, start, if_true, takeWhile_append_run all stops]
  exact congrArg (fun next => Except.ok (first :: more, next)) skipped

theorem ofChars?_of_unprefixed {name : String} (named : Unprefixed name) :
    QualifiedName.ofChars? name.toList = some ⟨"", name⟩ := by
  obtain ⟨⟨first, more, split, start, _⟩, plain⟩ := named
  have whole : name.toList.span (· ≠ ':') = (name.toList, []) := by
    rw [List.span_eq_takeWhile_dropWhile]
    have all : ∀ c ∈ name.toList, decide (c ≠ ':') = true := fun c member =>
      decide_eq_true fun same => plain (same ▸ member)
    rw [List.takeWhile_eq_self_iff.mpr all, List.dropWhile_eq_nil_iff.mpr all]
  have well : QualifiedName.startsWell name.toList = true := by
    rw [split]
    exact start
  have some_ : name.toList.isEmpty = false := by
    rw [split]
    rfl
  simp only [QualifiedName.ofChars?, whole, well, some_, String.ofList_toList]
  rfl

theorem QualifiedName.read_append {name : String} {rest : List Char} (named : Unprefixed name)
    (stops : ∀ c ∈ rest.head?, isNameChar c = false) (p : Position) :
    QualifiedName.read ⟨name.toList ++ rest, p⟩ = .ok (⟨"", name⟩, ⟨rest, p.after name.toList⟩) := by
  have all := named.isName.all
  rw [QualifiedName.read, Cursor.skipWhile_append all stops]
  simp only [takeWhile_append_run all stops, ofChars?_of_unprefixed named]

/-! ## Values -/

theorem isHexDigit_of_isDigit {d : Char} (digit : d.isDigit = true) :
    Reference.isHexDigit d = true := by
  simp only [Reference.isHexDigit, digit, Bool.true_or]

/-- A hexadecimal digit is one of the first characters of all. -/
theorem toNat_lt_of_isHexDigit {d : Char} (digit : Reference.isHexDigit d = true) :
    d.toNat < 0x80 := by
  simp only [Reference.isHexDigit, Char.isDigit, Bool.or_eq_true, Bool.and_eq_true,
    decide_eq_true_eq] at digit
  rcases digit with (⟨_, high⟩ | ⟨_, high⟩) | ⟨_, high⟩
  · exact Nat.lt_of_le_of_lt (UInt32.le_iff_toNat_le.mp high) (by decide)
  · exact Nat.lt_of_le_of_lt (UInt32.le_iff_toNat_le.mp high) (by decide)
  · exact Nat.lt_of_le_of_lt (UInt32.le_iff_toNat_le.mp high) (by decide)

theorem digitPlace_eq {d : Char} (digit : Reference.isHexDigit d = true) :
    Reference.digitValue d = digitPlace d := by
  have each : ∀ n : Fin 0x80, Reference.isHexDigit (Char.ofNat n) = true →
      Reference.digitValue (Char.ofNat n) = digitPlace (Char.ofNat n) := by decide
  have here := each ⟨d.toNat, toNat_lt_of_isHexDigit digit⟩
  rw [Char.ofNat_toNat] at here
  exact here digit

theorem isNameChar_of_isHexDigit {d : Char} (digit : Reference.isHexDigit d = true) :
    isNameChar d = true := by
  have each : ∀ n : Fin 0x80, Reference.isHexDigit (Char.ofNat n) = true →
      isNameChar (Char.ofNat n) = true := by decide
  have here := each ⟨d.toNat, toNat_lt_of_isHexDigit digit⟩
  rw [Char.ofNat_toNat] at here
  exact here digit

theorem numberOf_eq {base : Nat} {digits : List Char}
    (all : ∀ d ∈ digits, Reference.isHexDigit d = true) :
    Reference.numberOf base digits = codeOf base digits := by
  rw [Reference.numberOf, codeOf]
  refine List.foldl_ext _ _ _ fun code d member => ?_
  rw [digitPlace_eq (all d member)]

theorem characterOf_toNat (c : Char) : Reference.characterOf c.toNat = c := by
  have valid : c.toNat < 0xD800 ∨ (0xDFFF < c.toNat ∧ c.toNat < 0x110000) := c.valid
  rw [Reference.characterOf, if_pos valid, Char.ofNat_toNat]

/-- The digits of the code of an allowed character refer to it. -/
theorem ofDigits?_eq {base : Nat} {digits : List Char} {c : Char} (allowed : isAllowed c = true)
    (nonempty : digits ≠ []) (all : ∀ d ∈ digits, Reference.isHexDigit d = true)
    (code : codeOf base digits = c.toNat) :
    Reference.ofDigits? base digits = some (.character c) := by
  have fits : ¬ UInt32.size ≤ c.toNat := Nat.not_le.mpr c.val.toNat_lt
  simp [Reference.ofDigits?, numberOf_eq all, code, characterOf_toNat, nonempty, fits, allowed]

theorem Refers.read? {c : Char} {body : List Char} (refers : Refers c body) (rest : List Char) :
    Reference.read? (body ++ ';' :: rest) = some (.character c, rest) := by
  have semicolon {f : Char → Bool} (other : f ';' = false) :
      ∀ d ∈ (';' :: rest).head?, f d = false :=
    forall_head?_cons other _
  cases refers with
  | quote | ampersand | apostrophe | less | greater => rfl
  | @decimal _ digits allowed nonempty all code =>
      have hexadecimal : ∀ d ∈ digits, Reference.isHexDigit d = true := fun d member =>
        isHexDigit_of_isDigit (all d member)
      rw [List.cons_append, Reference.read?, takeWhile_append_run all (semicolon rfl),
        dropWhile_append_run all (semicolon rfl), ofDigits?_eq allowed nonempty hexadecimal code]
      · rfl
      · intro cs split
        obtain ⟨d, more, rfl⟩ := List.exists_cons_of_ne_nil nonempty
        obtain ⟨rfl, _⟩ := List.cons.inj split
        exact absurd (all 'x' List.mem_cons_self) (by decide)
  | @hexadecimal _ digits allowed nonempty all code =>
      rw [List.cons_append, List.cons_append, Reference.read?,
        takeWhile_append_run all (semicolon rfl), dropWhile_append_run all (semicolon rfl),
        ofDigits?_eq allowed nonempty all code]
      rfl

/-- A reference is spelled with a number sign and characters of names. -/
theorem Refers.of_mem {c : Char} {body : List Char} (refers : Refers c body) :
    ∀ d ∈ body, d = '#' ∨ isNameChar d = true := by
  cases refers with
  | quote | ampersand | apostrophe | less | greater => decide
  | decimal _ _ all _ =>
      refine List.forall_mem_cons.mpr ⟨.inl rfl, fun d member => ?_⟩
      exact .inr (isNameChar_of_isHexDigit (isHexDigit_of_isDigit (all d member)))
  | hexadecimal _ _ all _ =>
      refine List.forall_mem_cons.mpr ⟨.inl rfl, List.forall_mem_cons.mpr ⟨.inr rfl, ?_⟩⟩
      exact fun d member => .inr (isNameChar_of_isHexDigit (all d member))

/-- Neither a mark of markup nor a quote. -/
def Ordinary (stops : List Char) (c : Char) : Prop :=
  isAllowed c = true ∧ c ≠ '<' ∧ c ∉ stops

/-- No character of a name is a mark or a quote. -/
theorem ordinary_of_isNameChar {stops : List Char} (quotes : stops ⊆ ['"', '\'']) {c : Char}
    (name : isNameChar c = true) : Ordinary stops c := by
  have marks : ∀ d ∈ ['<', '"', '\''], isNameChar d = false := by decide
  have other : c ∉ ['<', '"', '\''] := by
    intro member
    rw [marks c member] at name
    cases name
  rw [List.mem_cons, not_or] at other
  exact ⟨isAllowed_of_isNameChar name, other.1, fun member => other.2 (quotes member)⟩

theorem quote_subset {quote : Char} (quoted : quote = '"' ∨ quote = '\'') :
    [quote] ⊆ ['"', '\''] := by
  rcases quoted with rfl | rfl <;> simp

theorem Denotes.ordinary {stops raw value : List Char} (denotes : Denotes stops raw value)
    (quotes : stops ⊆ ['"', '\'']) : ∀ c ∈ raw, Ordinary stops c := by
  have other {c : Char} (allowed : isAllowed c = true) (plain : c ∉ ['<', '"', '\'']) :
      Ordinary stops c := by
    rw [List.mem_cons, not_or] at plain
    exact ⟨allowed, plain.1, fun member => plain.2 (quotes member)⟩
  induction denotes with
  | nil => exact List.forall_mem_nil _
  | literal allowed free plain more ih =>
      exact List.forall_mem_cons.mpr
        ⟨⟨allowed, fun same => plain (same ▸ List.mem_cons_self), free⟩, ih⟩
  | tab more ih | lineFeed more ih | carriageReturn alone more ih =>
      exact List.forall_mem_cons.mpr ⟨other rfl (by decide), ih⟩
  | lineEnd more ih =>
      exact List.forall_mem_cons.mpr ⟨other rfl (by decide),
        List.forall_mem_cons.mpr ⟨other rfl (by decide), ih⟩⟩
  | reference refers more ih =>
      refine List.forall_mem_cons.mpr ⟨other rfl (by decide), List.forall_mem_append.mpr ⟨?_,
        List.forall_mem_cons.mpr ⟨other rfl (by decide), ih⟩⟩⟩
      intro d member
      rcases refers.of_mem d member with rfl | name
      · exact other rfl (by decide)
      · exact ordinary_of_isNameChar quotes name

theorem denotedIn_cons {c : Char} (plain : c ≠ '&') (steps : Nat) (cs : List Char) (p : Position) :
    denotedIn (steps + 1) (c :: cs) p =
      (denotedIn steps cs (p.next c)).map (literalInValue c cs ++ ·) := by
  rw [denotedIn]
  exact fun same => plain same

theorem literalInValue_of_plain {c : Char} (plain : c ∉ ['<', '&', '\t', '\n', '\r'])
    (rest : List Char) : literalInValue c rest = [c] := by
  simp only [List.mem_cons, List.not_mem_nil, or_false, not_or] at plain
  simp [literalInValue, plain]

/-- The value that raw characters denote is read off them, in as many steps as there are
characters or more. -/
theorem Denotes.denotedIn_eq {stops raw value : List Char} (denotes : Denotes stops raw value) :
    ∀ (spare : Nat) (p : Position), denotedIn (raw.length + spare) raw p = .ok value := by
  induction denotes with
  | nil =>
      intro spare p
      rw [List.length_nil, Nat.zero_add]
      cases spare <;> rfl
  | literal allowed free plain more ih =>
      intro spare p
      have other : _ ≠ '&' := fun same => plain (same ▸ .tail _ List.mem_cons_self)
      rw [List.length_cons, Nat.add_right_comm, denotedIn_cons other, ih,
        literalInValue_of_plain plain]
      rfl
  | tab more ih | lineFeed more ih =>
      intro spare p
      rw [List.length_cons, Nat.add_right_comm, denotedIn_cons (by decide), ih]
      rfl
  | carriageReturn alone more ih =>
      intro spare p
      rw [List.length_cons, Nat.add_right_comm, denotedIn_cons (by decide), ih]
      simp [literalInValue, alone, Except.map]
  | lineEnd more ih =>
      intro spare p
      rw [List.length_cons, Nat.add_right_comm, denotedIn_cons (by decide), List.length_cons,
        Nat.add_right_comm, denotedIn_cons (by decide), ih]
      rfl
  | @reference c body raw value refers more ih =>
      intro spare p
      have length : ('&' :: (body ++ ';' :: raw)).length + spare =
          raw.length + (body.length + 1 + spare) + 1 := by
        simp only [List.length_cons, List.length_append]
        omega
      rw [length, denotedIn, refers.read?]
      simp only [ih]
      rfl

theorem Denotes.denoted_eq {stops raw value : List Char} (denotes : Denotes stops raw value)
    (p : Position) : denoted raw p = .ok (String.ofList value) := by
  rw [denoted, ← Nat.add_zero raw.length, denotes.denotedIn_eq]
  rfl

/-! ## Pairs -/

namespace Cursor

theorem expect_cons (c : Char) (rest : List Char) (p : Position) :
    expect c ⟨c :: rest, p⟩ = .ok ((), ⟨rest, p.next c⟩) := by
  simp only [expect, if_true]
  rfl

/-- The mark is found where it stands. -/
theorem startsWith_append (mark : String) (rest : List Char) (p : Position) :
    startsWith mark ⟨mark.toList ++ rest, p⟩ = true :=
  List.isPrefixOf_iff_prefix.mpr (List.prefix_append _ _)

theorem expectText_append (mark : String) (rest : List Char) (p : Position) :
    expectText mark ⟨mark.toList ++ rest, p⟩ = .ok ((), ⟨rest, p.after mark.toList⟩) := by
  rw [expectText, if_pos (startsWith_append mark rest p), ← String.length_toList, advance_append]

end Cursor

theorem readEquals_append {before after rest : List Char} (beforeIs : Spaces before)
    (afterIs : Spaces after) (stops : ∀ c ∈ rest.head?, isSpace c = false) (p : Position) :
    readEquals ⟨before ++ '=' :: (after ++ rest), p⟩ =
      .ok ((), ⟨rest, p.after (before ++ '=' :: after)⟩) := by
  have equals : ∀ c ∈ ('=' :: (after ++ rest)).head?, isSpace c = false :=
    forall_head?_cons (by rfl) _
  rw [readEquals, Cursor.skipSpaces_append beforeIs equals, Cursor.expect_cons]
  simp only [bind, Except.bind, Cursor.skipSpaces_append afterIs stops]
  simp only [Position.after_append, Position.after_cons]
  rfl

/-- A name ends before white space, and before what else is no character of names. -/
theorem name_stops {gap : List Char} (gapIs : Spaces gap) {c : Char} (other : isNameChar c = false)
    (rest : List Char) : ∀ d ∈ (gap ++ c :: rest).head?, isNameChar d = false := by
  cases gap with
  | nil => exact forall_head?_cons other rest
  | cons space gap =>
      exact forall_head?_cons (not_isNameChar_of_isSpace (gapIs space List.mem_cons_self)) _

theorem isAllowed_quote {quote : Char} (quoted : quote = '"' ∨ quote = '\'') :
    isAllowed quote = true ∧ isSpace quote = false := by
  rcases quoted with rfl | rfl <;> exact ⟨rfl, rfl⟩

theorem readQuote_cons {quote : Char} (quoted : quote = '"' ∨ quote = '\'') (rest : List Char)
    (p : Position) : readQuote ⟨quote :: rest, p⟩ = .ok (quote, ⟨rest, p.next quote⟩) := by
  simp only [readQuote, quoted, if_true]
  rfl

/-- The raw characters of a value end at its quote. -/
theorem run_value {raw rest : List Char} {quote : Char} (quoted : quote = '"' ∨ quote = '\'')
    (ordinary : ∀ c ∈ raw, Ordinary [quote] c) (p : Position) :
    Cursor.run (fun cs => cs.head? = some quote || cs.head? = some '<') ⟨raw ++ quote :: rest, p⟩ =
      .ok (raw, ⟨quote :: rest, p.after raw⟩) := by
  refine Cursor.run_append (fun c member => (ordinary c member).1) ?_ (.inr ⟨by simp, ?_⟩)
  · intro tail suffix nonempty
    obtain ⟨c, tail, rfl⟩ := List.exists_cons_of_ne_nil nonempty
    obtain ⟨_, open_, quote_⟩ := ordinary c (suffix.subset List.mem_cons_self)
    rw [List.mem_singleton] at quote_
    simp [open_, quote_]
  · exact forall_head?_cons (isAllowed_quote quoted).1 rest

/-- A pair is read with the raw characters of its value. -/
theorem readPair_append {name : String} {before after raw : List Char} {quote : Char}
    (named : Unprefixed name) (beforeIs : Spaces before) (afterIs : Spaces after)
    (quoted : quote = '"' ∨ quote = '\'') (ordinary : ∀ c ∈ raw, Ordinary [quote] c)
    (rest : List Char) (p : Position) :
    ∃ at_, readPair ⟨pair name.toList before after quote raw ++ rest, p⟩ =
      .ok ((⟨"", name⟩, raw, at_), ⟨rest, p.after (pair name.toList before after quote raw)⟩) := by
  have split : pair name.toList before after quote raw ++ rest =
      name.toList ++ (before ++ '=' :: (after ++ quote :: (raw ++ quote :: rest))) := by
    simp [pair]
  have quoteStops : ∀ c ∈ (quote :: (raw ++ quote :: rest)).head?, isSpace c = false :=
    forall_head?_cons (isAllowed_quote quoted).2 _
  refine ⟨((p.after name.toList).after (before ++ '=' :: after)).next quote, ?_⟩
  rw [split, readPair, QualifiedName.read_append named (name_stops beforeIs rfl _)]
  simp only [bind, Except.bind, readEquals_append beforeIs afterIs quoteStops,
    readQuote_cons quoted, run_value quoted ordinary, Cursor.expect_cons, pure, Except.pure]
  simp only [pair, Position.after_append, Position.after_cons, Position.after_nil]

/-! ## Comments, instructions and sections -/

namespace Cursor

/-- What is in front of a mark is run through up to the mark. -/
theorem runTo_append {mark : String} {cs : List Char} (nonempty : mark.toList ≠ [])
    (unbordered : Unbordered mark.toList) (written : Allowed mark.toList) (allowed : Allowed cs)
    (absent : ¬ mark.toList <:+: cs) (rest : List Char) (p : Position) :
    runTo mark ⟨cs ++ (mark.toList ++ rest), p⟩ =
      .ok (cs, ⟨mark.toList ++ rest, p.after cs⟩) := by
  refine run_append allowed (fun tail suffix nonempty => ?_) (.inr ⟨?_, ?_⟩)
  · rw [← Bool.not_eq_true, List.isPrefixOf_iff_prefix]
    exact unbordered.not_prefix absent suffix nonempty rest
  · exact List.isPrefixOf_iff_prefix.mpr (List.prefix_append _ _)
  · rw [List.head?_append_of_ne_nil _ nonempty]
    exact fun c first => written c (List.mem_of_mem_head? first)

end Cursor

theorem hasDoubleHyphen_eq_false {text : List Char} (single : ¬ "--".toList <:+: text)
    (ends : text.getLast? ≠ some '-') : readComment.hasDoubleHyphen text = false := by
  fun_induction readComment.hasDoubleHyphen text with
  | case1 => rfl
  | case2 => exact absurd rfl ends
  | case3 rest => exact absurd (List.prefix_append "--".toList rest).isInfix single
  | case4 c rest _ _ ih =>
      refine ih (fun within => single (within.trans (List.suffix_cons c rest).isInfix)) ?_
      cases rest with
      | nil => simp
      | cons d more => rwa [List.getLast?_cons_cons] at ends

theorem readComment_append {cs : List Char} (comment : Comment cs) (rest : List Char)
    (p : Position) : readComment ⟨cs ++ rest, p⟩ = .ok ((), ⟨rest, p.after cs⟩) := by
  obtain @⟨text, allowed, single, ends⟩ := comment
  have absent : ¬ "-->".toList <:+: text := fun within =>
    single ((List.prefix_append "--".toList ['>']).isInfix.trans within)
  have opened : (⟨"<!--".toList ++ (text ++ ("-->".toList ++ rest)), p⟩ : Cursor).advance 4 =
      ⟨text ++ ("-->".toList ++ rest), p.after "<!--".toList⟩ :=
    Cursor.advance_append "<!--".toList _ p
  have mark : Allowed "-->".toList := by decide
  have ran := Cursor.runTo_append (by decide) (by decide) mark allowed absent rest
    (p.after "<!--".toList)
  simp only [readComment, List.append_assoc, opened, ran, bind, Except.bind,
    Cursor.expectText_append, hasDoubleHyphen_eq_false single ends, Position.after_append]
  rfl

theorem readSection_append {cs : List Char} (data : Section cs) (rest : List Char)
    (p : Position) : readSection ⟨cs ++ rest, p⟩ = .ok ((), ⟨rest, p.after cs⟩) := by
  obtain @⟨data, allowed, inside⟩ := data
  have opened : (⟨"<![CDATA[".toList ++ (data ++ ("]]>".toList ++ rest)), p⟩ : Cursor).advance 9 =
      ⟨data ++ ("]]>".toList ++ rest), p.after "<![CDATA[".toList⟩ :=
    Cursor.advance_append "<![CDATA[".toList _ p
  have mark : Allowed "]]>".toList := by decide
  have ran := Cursor.runTo_append (by decide) (by decide) mark allowed inside rest
    (p.after "<![CDATA[".toList)
  simp only [readSection, List.append_assoc, opened, ran, bind, Except.bind,
    Cursor.expectText_append, Position.after_append]

/-- The target of an instruction ends where its body or its end mark begins. -/
theorem target_stops {body : List Char} (separated : ∀ c ∈ body.head?, isSpace c = true)
    (rest : List Char) :
    ∀ c ∈ (body ++ ("?>".toList ++ rest)).head?, isNameChar c = false := by
  cases body with
  | nil => exact forall_head?_cons (by rfl) _
  | cons d body => exact forall_head?_cons (not_isNameChar_of_isSpace (separated d rfl)) _

/-- An instruction does not begin like a declaration. -/
theorem not_startsWith_declaration {target rest : List Char} (isName : IsName target)
    (notDeclaration : target ≠ "xml".toList) (stops : ∀ c ∈ rest.head?, isNameChar c = false)
    (p : Position) :
    Cursor.startsWith "<?xml " ⟨"<?".toList ++ (target ++ rest), p⟩ = false := by
  rw [← Bool.not_eq_true, Cursor.startsWith, List.isPrefixOf_iff_prefix]
  rintro ⟨tail, same⟩
  have behindMark : "xml".toList ++ ' ' :: tail = target ++ rest := by
    simpa using same
  -- Both sides begin with a name that ends there.
  have names := congrArg (List.takeWhile isNameChar) behindMark
  rw [takeWhile_append_run isName.all stops,
    takeWhile_append_run (by decide) (forall_head?_cons (by rfl) _)] at names
  exact notDeclaration names.symm

/-- White space is skipped, as far as it goes, in front of what is none. -/
theorem Cursor.skipSpaces_split {rest : List Char} (stops : ∀ c ∈ rest.head?, isSpace c = false)
    (cs : List Char) (p : Position) :
    skipSpaces ⟨cs ++ rest, p⟩ =
      ⟨cs.dropWhile isSpace ++ rest, p.after (cs.takeWhile isSpace)⟩ := by
  have split : cs ++ rest = cs.takeWhile isSpace ++ (cs.dropWhile isSpace ++ rest) := by
    rw [← List.append_assoc, List.takeWhile_append_dropWhile]
  rw [split]
  refine skipSpaces_append (fun c member => List.mem_takeWhile_imp member) fun c first => ?_
  have visible := List.head?_dropWhile_not isSpace cs
  cases left : cs.dropWhile isSpace with
  | nil =>
      rw [left] at first
      exact stops c first
  | cons d more =>
      rw [left] at first visible
      cases first
      exact visible

/-- What has the form of an instruction, and does not begin like a declaration, is read as one. -/
theorem readInstruction_of {target body : List Char} (isName : IsName target)
    (separated : ∀ c ∈ body.head?, isSpace c = true) (allowed : Allowed body)
    (inside : ¬ "?>".toList <:+: body) {rest : List Char} {p : Position}
    (other : Cursor.startsWith "<?xml "
      ⟨"<?".toList ++ (target ++ (body ++ ("?>".toList ++ rest))), p⟩ = false) :
    readInstruction ⟨"<?".toList ++ (target ++ (body ++ ("?>".toList ++ rest))), p⟩ =
      .ok ((), ⟨rest, p.after ("<?".toList ++ target ++ body ++ "?>".toList)⟩) := by
  have opened :
      (⟨"<?".toList ++ (target ++ (body ++ ("?>".toList ++ rest))), p⟩ : Cursor).advance 2 =
        ⟨target ++ (body ++ ("?>".toList ++ rest)), p.after "<?".toList⟩ :=
    Cursor.advance_append "<?".toList _ p
  have named := Cursor.name_append isName (target_stops separated rest) (p.after "<?".toList)
  have markStops : ∀ c ∈ ("?>".toList ++ rest).head?, isSpace c = false :=
    forall_head?_cons (by rfl) _
  have skipped := Cursor.skipSpaces_split markStops body ((p.after "<?".toList).after target)
  have mark : Allowed "?>".toList := by decide
  -- What is left of the body after white space is an end of it, and so has no end mark either.
  have suffix : body.dropWhile isSpace <:+ body := List.dropWhile_suffix isSpace
  have ran := Cursor.runTo_append (by decide) (by decide) mark
    (fun c member => allowed c (suffix.subset member))
    (fun within => inside (within.trans suffix.isInfix)) rest
    (((p.after "<?".toList).after target).after (body.takeWhile isSpace))
  have whole : ((((p.after "<?".toList).after target).after (body.takeWhile isSpace)).after
      (body.dropWhile isSpace)) = ((p.after "<?".toList).after target).after body := by
    rw [← Position.after_append _ (body.takeWhile isSpace), List.takeWhile_append_dropWhile]
  simp only [readInstruction, opened, other, named, skipped, ran, bind, Except.bind,
    Cursor.expectText_append, Position.after_append, whole]
  rfl

theorem readInstruction_append {cs : List Char} (instruction : Instruction cs) (rest : List Char)
    (p : Position) : readInstruction ⟨cs ++ rest, p⟩ = .ok ((), ⟨rest, p.after cs⟩) := by
  obtain @⟨target, body, isName, notDeclaration, separated, allowed, inside⟩ := instruction
  have other := not_startsWith_declaration isName notDeclaration (target_stops separated rest) p
  have read := readInstruction_of isName separated allowed inside other
  simpa only [List.append_assoc] using read

theorem not_holds {mark text : List Char} (absent : ¬ mark <:+: text) : holds mark text = false := by
  induction text with
  | nil =>
      rw [List.infix_nil] at absent
      simpa [holds] using absent
  | cons c text ih =>
      have later := ih fun within => absent (within.trans (List.suffix_cons c text).isInfix)
      have here : mark.isPrefixOf (c :: text) = false := by
        rw [← Bool.not_eq_true, List.isPrefixOf_iff_prefix]
        exact fun begins => absent begins.isInfix
      rw [holds, here, later, Bool.or_false]

theorem readText_append {cs : List Char} (run : TextRun cs) {rest : List Char}
    (ends : ∀ c ∈ rest.head?, c = '<') (p : Position) :
    readText ⟨cs ++ rest, p⟩ = .ok ((), ⟨rest, p.after cs⟩) := by
  obtain ⟨_, denotes, inside⟩ := run
  have ordinary := denotes.ordinary (List.nil_subset _)
  have ran : Cursor.run (fun cs => cs.head? = some '<') ⟨cs ++ rest, p⟩ =
      .ok (cs, ⟨rest, p.after cs⟩) := by
    refine Cursor.run_append (fun c member => (ordinary c member).1) ?_ ?_
    · intro tail suffix nonempty
      obtain ⟨c, tail, rfl⟩ := List.exists_cons_of_ne_nil nonempty
      simp [(ordinary c (suffix.subset List.mem_cons_self)).2.1]
    · cases rest with
      | nil => exact .inl rfl
      | cons c rest =>
          obtain rfl := ends c rfl
          exact .inr ⟨rfl, forall_head?_cons (by rfl) rest⟩
  simp only [readText, ran, bind, Except.bind, not_holds inside, checkText, denotes.denoted_eq]
  rfl

end SourceLint.Markup
