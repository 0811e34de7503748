import SourceLint.Proofs.Source.Words
import SourceLint.Source.Grammar.File

/-! # Where the words of a file stand

A word of a file says where it stands: at the line after the line feeds in front of it, and at the
column after the characters since the last of them. An interpreter line is not read, and yet counts
as a line; a byte order mark does not count.
-/

namespace SourceLint.Source

/-- The text goes on with that name, or with a comment that stands for an attribute of that name. -/
def Spells (name : String) (rest : List Char) : Prop :=
  name.toList <+: rest ∨ name = "doc" ∧ (docComment? rest).isSome

/-- The name stands in the text, right where it says, and nothing blank does. -/
def StandsIn (text : List Char) (name : Name) : Prop :=
  ∃ before rest, text = before ++ rest ∧ name.position = Position.behind before ∧
    blank? rest = none ∧ Spells name.text rest

theorem spells_of_mem_piece? {p : Position} {cs : List Char} {n : Nat} {lexemes : List Lexeme}
    (found : piece? p cs = some (n, lexemes)) {name : Name} (member : .word name ∈ lexemes) :
    name.position = p ∧ blank? cs = none ∧ Spells name.text cs := by
  unfold piece? at found
  split at found
  · cases found
    cases member
  · rename_i solid
    split at found
    · rename_i comment
      split at found
      · cases found
        rw [docAttribute_word member]
        exact ⟨rfl, solid, .inr ⟨rfl, by rw [comment]; rfl⟩⟩
      · cases found
    · split at found
      · cases found
      · split at found
        · cases found
          simp at member
        · cases found
          simp at member
        · obtain ⟨⟨m, lexeme⟩, leaf, eq⟩ := Option.map_eq_some_iff.mp found
          cases eq
          cases List.mem_singleton.mp member
          obtain ⟨_, text⟩ := leaf?_text leaf
          refine ⟨leaf?_word leaf, solid, .inl ?_⟩
          rw [text, String.toList_ofList]
          exact List.take_prefix _ _

theorem IsWordOf.standsIn {cs : List Char} {name : Name} (word : IsWordOf cs name) :
    StandsIn cs name := by
  obtain ⟨lexemes, read, member⟩ := word
  obtain ⟨before, rest, split, _, _, piece, inside⟩ :=
    inPiece_of_mem_lexemesFrom read member List.not_mem_nil
  obtain ⟨place, solid, spells⟩ := spells_of_mem_piece? piece inside
  refine ⟨before, rest, split, ?_, solid, spells⟩
  rw [place, ← List.nil_append before, Position.behind_append]
  rfl

/-- What is not read of a text is a line in front, which what is read ends. -/
theorem exists_line_append_withoutInterpreter (cs : List Char) :
    ∃ line, cs = line ++ withoutInterpreter cs ∧ '\n' ∉ line ∧
      (line = [] ∨ ∀ c ∈ (withoutInterpreter cs).head?, c = '\n') := by
  have line : ∃ line, cs = line ++ cs.dropWhile (· ≠ '\n') ∧ '\n' ∉ line ∧
      (line = [] ∨ ∀ c ∈ (cs.dropWhile (· ≠ '\n')).head?, c = '\n') := by
    refine ⟨cs.takeWhile (· ≠ '\n'), List.takeWhile_append_dropWhile.symm, fun feed => ?_,
      .inr fun c first => ?_⟩
    · simpa using List.all_eq_true.mp List.all_takeWhile _ feed
    · have stops := List.head?_dropWhile_not (· ≠ '\n') cs
      rw [first] at stops
      simpa using stops
  unfold withoutInterpreter
  split
  · split
    · exact ⟨[], rfl, List.not_mem_nil, .inl rfl⟩
    · exact line
  · exact ⟨[], rfl, List.not_mem_nil, .inl rfl⟩

/-- Places behind a line feed do not depend on what its line holds. -/
theorem behind_line_append {line before : List Char} (oneLine : '\n' ∉ line)
    (feeds : before.head? = some '\n') :
    Position.behind (line ++ before) = Position.behind before := by
  obtain ⟨rest, rfl⟩ := List.head?_eq_some_iff.mp feeds
  have next : (Position.behind line).next '\n' = (Position.behind []).next '\n' := by
    simp [Position.behind, Position.next, List.count_eq_zero.mpr oneLine]
  rw [Position.behind_append, Position.after_cons, next, ← Position.after_cons,
    ← Position.behind_append, List.nil_append]

/-- A word of a file stands where it says in the whole text, a byte order mark aside. -/
theorem standsIn_of_isWordOf_contentOf {text : String} {name : Name}
    (word : IsWordOf (contentOf text) name) : StandsIn (withoutMark text.toList) name := by
  obtain ⟨before, rest, split, place, solid, spells⟩ := word.standsIn
  obtain ⟨line, whole, oneLine, ends⟩ :=
    exists_line_append_withoutInterpreter (withoutMark text.toList)
  change withoutMark text.toList = line ++ contentOf text at whole
  change line = [] ∨ ∀ c ∈ (contentOf text).head?, c = '\n' at ends
  rw [split] at whole ends
  refine ⟨line ++ before, rest, by rw [whole, List.append_assoc], ?_, solid, spells⟩
  rcases ends with rfl | feeds
  · exact place
  · -- A word never begins where the line ends, as a line feed is blank.
    have behind : before.head? = some '\n' := by
      cases before with
      | nil =>
          cases rest with
          | nil =>
              rcases spells with spelled | ⟨_, comment⟩
              · have empty := String.toList_eq_nil_iff.mp (List.prefix_nil.mp spelled)
                have inked := word.inked
                rw [empty] at inked
                cases inked
              · cases comment
          | cons c rest =>
              obtain rfl := feeds c rfl
              cases solid
      | cons c before => rw [feeds c rfl]; rfl
    rw [place, behind_line_append oneLine behind]

end SourceLint.Source
