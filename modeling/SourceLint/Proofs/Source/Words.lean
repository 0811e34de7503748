import SourceLint.Proofs.Position.Behind
import SourceLint.Source.Token.Tree

/-! # The words of a text

Two words of a text that stand at the same place are one word. Positions only grow as a
text is read on, so a place tells what is left of the text there, and that begins with
one word at most.
-/

namespace SourceLint

namespace Position

/-- No character takes a position back. -/
theorem le_after (p : Position) (cs : List Char) :
    p.line < (p.after cs).line ∨ p.line = (p.after cs).line ∧ p.column ≤ (p.after cs).column := by
  induction cs generalizing p with
  | nil => exact .inr ⟨rfl, Nat.le_refl _⟩
  | cons c rest ih =>
      rw [after_cons]
      have further := ih (p.next c)
      unfold next at further ⊢
      split at further <;> rename_i feed
      · rw [if_pos feed]
        dsimp only at further ⊢
        omega
      · rw [if_neg feed]
        dsimp only at further ⊢
        omega

/-- A position that a text leads back to is that of an empty text. -/
theorem eq_nil_of_after_eq {p : Position} {cs : List Char} (same : p.after cs = p) : cs = [] := by
  cases cs with
  | nil => rfl
  | cons c rest =>
      exfalso
      rw [after_cons] at same
      have further := le_after (p.next c) rest
      rw [same] at further
      unfold next at further
      split at further <;> dsimp only at further <;> omega

/-- A place in a text tells what is left there. -/
theorem rest_eq_of_after_eq {p : Position} {before before' rest rest' : List Char}
    (same : before ++ rest = before' ++ rest') (at_ : p.after before = p.after before') :
    rest = rest' := by
  rcases List.append_eq_append_iff.mp same with ⟨mid, rfl, rfl⟩ | ⟨mid, rfl, rfl⟩
  · rw [after_append] at at_
    rw [eq_nil_of_after_eq at_.symm]
    rfl
  · rw [after_append] at at_
    rw [eq_nil_of_after_eq at_]
    rfl

end Position

namespace Source

theorem lexemesFrom_nil (done : List Lexeme) (skip : Nat) (p : Position) :
    lexemesFrom done skip p [] = some done.reverse := by
  cases skip <;> rfl

theorem lexemesFrom_skip (done : List Lexeme) (skip : Nat) (p : Position) (c : Char)
    (cs : List Char) :
    lexemesFrom done (skip + 1) p (c :: cs) = lexemesFrom done skip (p.next c) cs :=
  rfl

theorem lexemesFrom_piece (done : List Lexeme) (p : Position) (c : Char) (cs : List Char) :
    lexemesFrom done 0 p (c :: cs) = match piece? p (c :: cs) with
      | some (n, lexemes) => lexemesFrom (lexemes.reverse ++ done) (n - 1) (p.next c) cs
      | none => none := by
  rfl

/-- The lexeme belongs to the piece in front of a text at `p`. -/
def InPiece (p : Position) (cs : List Char) (lexeme : Lexeme) : Prop :=
  ∃ n lexemes, piece? p cs = some (n, lexemes) ∧ lexeme ∈ lexemes

theorem leaf?_word {p : Position} {cs : List Char} {n : Nat} {name : Name}
    (found : leaf? p cs = some (n, .word name)) : name.position = p := by
  unfold leaf? at found
  grind

theorem docAttribute_word {p : Position} {text : List Char} {inner : Bool} {name : Name}
    (member : .word name ∈ docAttribute p text inner) : name = ⟨"doc", p⟩ := by
  unfold docAttribute at member
  cases inner <;> simpa using member

/-- The words of a piece are all the same and stand where the piece does. -/
theorem piece?_word {p : Position} {cs : List Char} {n : Nat} {lexemes : List Lexeme}
    (found : piece? p cs = some (n, lexemes)) :
    ∃ text, ∀ name, .word name ∈ lexemes → name = ⟨text, p⟩ := by
  unfold piece? at found
  split at found
  · cases found
    exact ⟨"", fun name member => absurd member List.not_mem_nil⟩
  · split at found
    · split at found
      · cases found
        exact ⟨"doc", fun name => docAttribute_word⟩
      · cases found
    · split at found
      · cases found
      · split at found
        · cases found
          exact ⟨"", fun name member => by simp at member⟩
        · cases found
          exact ⟨"", fun name member => by simp at member⟩
        · obtain ⟨⟨m, lexeme⟩, leaf, eq⟩ := Option.map_eq_some_iff.mp found
          cases eq
          cases lexeme with
          | word word =>
              refine ⟨word.text, fun name member => ?_⟩
              cases List.mem_singleton.mp member
              rw [← leaf?_word leaf]
          | _ => exact ⟨"", fun name member => by simp at member⟩

/-- A lexeme of a text belongs to the piece at some place of it. -/
theorem inPiece_of_mem_lexemesFrom {done lexemes : List Lexeme} {skip : Nat} {p : Position}
    {cs : List Char} (read : lexemesFrom done skip p cs = some lexemes) {lexeme : Lexeme}
    (member : lexeme ∈ lexemes) (new : lexeme ∉ done) :
    ∃ before rest, cs = before ++ rest ∧ InPiece (p.after before) rest lexeme := by
  induction cs generalizing done skip p with
  | nil =>
      rw [lexemesFrom_nil] at read
      cases read
      exact absurd (List.mem_reverse.mp member) new
  | cons c cs ih =>
      cases skip with
      | succ skip =>
          rw [lexemesFrom_skip] at read
          obtain ⟨before, rest, rfl, here⟩ := ih read new
          exact ⟨c :: before, rest, rfl, here⟩
      | zero =>
          rw [lexemesFrom_piece] at read
          split at read
          · rename_i n found piece
            by_cases now : lexeme ∈ found
            · exact ⟨[], c :: cs, rfl, n, found, piece, now⟩
            · obtain ⟨before, rest, rfl, here⟩ := ih read (by simp [now, new])
              exact ⟨c :: before, rest, rfl, here⟩
          · cases read

/-- Two words of a text at the same place are the same. -/
theorem IsWordOf.eq_of_position_eq {cs : List Char} {a b : Name} (first : IsWordOf cs a)
    (second : IsWordOf cs b) (same : a.position = b.position) : a = b := by
  obtain ⟨lexemes, read, inA⟩ := first
  obtain ⟨_, again, inB⟩ := second
  cases read.symm.trans again
  obtain ⟨before, rest, split, _, _, piece, member⟩ :=
    inPiece_of_mem_lexemesFrom read inA List.not_mem_nil
  obtain ⟨before', rest', split', _, _, piece', member'⟩ :=
    inPiece_of_mem_lexemesFrom read inB List.not_mem_nil
  obtain ⟨text, words⟩ := piece?_word piece
  obtain ⟨text', words'⟩ := piece?_word piece'
  rw [words a member, words' b member'] at same
  dsimp only at same
  rw [same, Position.rest_eq_of_after_eq (split.symm.trans split') same] at piece
  cases piece.symm.trans piece'
  rw [words' a member, words' b member']

/-! ## Words are not blank -/

theorem wordLength?_pos {cs : List Char} {n : Nat} (found : wordLength? cs = some n) : 0 < n := by
  unfold wordLength? at found
  grind

theorem leaf?_text {p : Position} {cs : List Char} {n : Nat} {name : Name}
    (found : leaf? p cs = some (n, .word name)) :
    0 < n ∧ name.text = String.ofList (cs.take n) := by
  unfold leaf? at found
  split at found
  · cases found
  · split at found
    · split at found <;> cases found
    · split at found
      · cases found
      · split at found
        · rename_i length
          cases found
          split at length
          · cases length
          · exact ⟨wordLength?_pos length, rfl⟩
        · split at found <;> cases found
    · cases found

theorem not_blank_of_blank? {c : Char} {cs : List Char} (found : blank? (c :: cs) = none) :
    Text.isBlank c = false := by
  rw [blank?] at found
  split at found
  · cases found
  · rename_i solid
    simp only [isSpace, Bool.or_eq_true, not_or] at solid
    exact Bool.eq_false_iff.mpr solid.1.1

/-- A word in a piece begins where the piece does, and no piece with a word begins with space. -/
theorem inked_of_mem_piece? {p : Position} {cs : List Char} {n : Nat} {lexemes : List Lexeme}
    (found : piece? p cs = some (n, lexemes)) {name : Name} (member : .word name ∈ lexemes) :
    Text.isBlankText name.text = false := by
  unfold piece? at found
  split at found
  · cases found
    cases member
  · rename_i solid
    split at found
    · split at found
      · cases found
        rw [docAttribute_word member]
        exact (by decide : Text.isBlankText "doc" = false)
      · cases found
    · split at found
      · cases found
      · rename_i c cs _
        split at found
        · cases found
          simp at member
        · cases found
          simp at member
        · obtain ⟨⟨m, lexeme⟩, leaf, eq⟩ := Option.map_eq_some_iff.mp found
          cases eq
          cases List.mem_singleton.mp member
          obtain ⟨some, text⟩ := leaf?_text leaf
          obtain ⟨k, rfl⟩ := Nat.exists_eq_succ_of_ne_zero (Nat.ne_of_gt some)
          simp [Text.isBlankText, text, not_blank_of_blank? solid]

theorem IsWordOf.inked {cs : List Char} {name : Name} (word : IsWordOf cs name) :
    Text.isBlankText name.text = false := by
  obtain ⟨lexemes, read, member⟩ := word
  obtain ⟨_, _, _, _, _, piece, inside⟩ :=
    inPiece_of_mem_lexemesFrom read member List.not_mem_nil
  exact inked_of_mem_piece? piece inside

/-! ## The characters of words -/

/-- A character that words are made of. -/
def IsWordChar (c : Char) : Prop :=
  Text.isIdentifierStart c = true ∨ Text.isIdentifierChar c = true ∨ c = '#'

theorem isWordChar_of_mem_identifier {cs : List Char} {c : Char}
    (member : c ∈ cs.take (identifierLength cs)) : IsWordChar c := by
  cases cs with
  | nil => cases member
  | cons first cs =>
      rw [identifierLength] at member
      split at member
      · rename_i starts
        rw [List.take_succ_cons] at member
        rcases List.mem_cons.mp member with rfl | later
        · exact .inl starts
        · rw [← List.prefix_iff_eq_take.mp (List.takeWhile_prefix _)] at later
          exact .inr (.inl (List.all_eq_true.mp List.all_takeWhile c later))
      · cases member

theorem isWordChar_of_mem_word {cs : List Char} {n : Nat} {c : Char}
    (found : wordLength? cs = some n) (member : c ∈ cs.take n) : IsWordChar c := by
  unfold wordLength? at found
  split at found <;> dsimp only at found
  · split at found
    · cases found
    · obtain rfl := Option.some.inj found
      rw [List.take_succ_cons, List.take_succ_cons] at member
      rcases List.mem_cons.mp member with rfl | member
      · exact .inl (by decide +kernel)
      · rcases List.mem_cons.mp member with rfl | member
        · exact .inr (.inr rfl)
        · exact isWordChar_of_mem_identifier member
  · split at found
    · cases found
    · obtain rfl := Option.some.inj found
      exact isWordChar_of_mem_identifier member

theorem leaf?_wordLength? {p : Position} {cs : List Char} {n : Nat} {name : Name}
    (found : leaf? p cs = some (n, .word name)) :
    wordLength? cs = some n ∧ name.text = String.ofList (cs.take n) := by
  unfold leaf? at found
  grind

theorem isWordChar_of_mem_piece? {p : Position} {cs : List Char} {n : Nat} {lexemes : List Lexeme}
    (found : piece? p cs = some (n, lexemes)) {name : Name} (member : .word name ∈ lexemes) :
    ∀ c ∈ name.text.toList, IsWordChar c := by
  unfold piece? at found
  split at found
  · cases found
    cases member
  · split at found
    · split at found
      · cases found
        rw [docAttribute_word member]
        intro c inside
        have letters : "doc".toList.all Text.isIdentifierStart = true := by decide
        exact .inl (List.all_eq_true.mp letters c inside)
      · cases found
    · split at found
      · cases found
      · split at found
        · cases found
          simp at member
        · cases found
          simp at member
        · obtain ⟨⟨m, lexeme⟩, leaf, eq⟩ := Option.map_eq_some_iff.mp found
          cases eq
          cases List.mem_singleton.mp member
          obtain ⟨length, text⟩ := leaf?_wordLength? leaf
          rw [text, String.toList_ofList]
          exact fun c => isWordChar_of_mem_word length

theorem IsWordOf.isWordChar {cs : List Char} {name : Name} (word : IsWordOf cs name) :
    ∀ c ∈ name.text.toList, IsWordChar c := by
  obtain ⟨lexemes, read, member⟩ := word
  obtain ⟨_, _, _, _, _, piece, inside⟩ :=
    inPiece_of_mem_lexemesFrom read member List.not_mem_nil
  exact isWordChar_of_mem_piece? piece inside

end Source

end SourceLint
