import SourceLint.Proofs.Glob.Plain
import SourceLint.Proofs.Path.Pieces

/-! # Patterns for every depth

A pattern that begins with any number of directories matches a path wherever what is above
ends. It does not only match below: what is above may itself hold what the pattern asks for,
as it does for the pattern of a directory that is called by a given name.
-/

namespace SourceLint

namespace Text

variable {mark : Char} {cs part : List Char}

/-- A part that is not the last one ends at a mark. -/
theorem exists_of_cutChars_cons {parts : List (List Char)} (cut : cutChars mark cs = part :: parts)
    (some : parts ≠ []) : ∃ rest, cs = part ++ mark :: rest ∧ cutChars mark rest = parts := by
  induction cs generalizing part with
  | nil =>
      cases cut
      exact absurd rfl some
  | cons c cs ih =>
      rw [cutChars] at cut
      split at cut
      · rename_i here
        cases cut
        exact ⟨cs, by rw [here]; rfl, rfl⟩
      · split at cut
        · cases cut
          exact absurd rfl some
        · rename_i first others split
          cases cut
          obtain ⟨rest, rfl, after⟩ := ih split
          exact ⟨rest, rfl, after⟩

/-- The parts but the last one are those that end at a mark. -/
theorem mem_dropLast_cutChars_iff (free : mark ∉ part) : part ∈ (cutChars mark cs).dropLast ↔
    (∃ rest, cs = part ++ mark :: rest) ∨
      ∃ front rest, cs = front ++ mark :: (part ++ mark :: rest) := by
  constructor
  · intro member
    induction cut : cutChars mark cs generalizing cs with
    | nil => exact absurd cut (cutChars_ne_nil mark cs)
    | cons first parts ih =>
        by_cases some : parts = []
        · rw [cut, some] at member
          cases member
        · obtain ⟨after, rfl, later⟩ := exists_of_cutChars_cons cut some
          rw [cut, List.dropLast_cons_of_ne_nil some] at member
          rcases List.mem_cons.mp member with rfl | inside
          · exact .inl ⟨after, rfl⟩
          · right
            rcases ih (later ▸ inside) later with ⟨rest, rfl⟩ | ⟨front, rest, rfl⟩
            · exact ⟨first, rest, rfl⟩
            · exact ⟨first ++ mark :: front, rest, by simp⟩
  · have ends (rest : List Char) : part ∈ (cutChars mark (part ++ mark :: rest)).dropLast := by
      rw [cutChars_append_mark, cutChars_of_not_mem free,
        List.dropLast_append_of_ne_nil (cutChars_ne_nil mark rest)]
      exact List.mem_append_left _ List.mem_cons_self
    rintro (⟨rest, rfl⟩ | ⟨front, rest, rfl⟩)
    · exact ends rest
    · rw [cutChars_append_mark, List.dropLast_append_of_ne_nil (cutChars_ne_nil mark _)]
      exact List.mem_append_right _ (ends rest)

end Text

namespace Glob

/-- The pattern begins with any number of directories. -/
def IsFloating (pattern : String) : Prop :=
  ∃ rest, pattern = "**/" ++ rest

/-! ## Compiling -/

/-- Compiling adds tokens to those there are. -/
theorem prefix_of_compileFrom {steps : Nat} {tokens all : List Token} {previous : Option Char}
    {i : Nat} {cs : List Char} (compiled : compileFrom steps tokens previous i cs = .ok all) :
    tokens <+: all := by
  have directories (tokens : List Token) : tokens <+: addDirectories tokens := by
    rw [addDirectories]
    split
    · exact List.prefix_rfl
    · exact List.prefix_append _ _
  fun_induction compileFrom steps tokens previous i cs with
  | case1 tokens | case2 tokens =>
      cases compiled
      exact List.prefix_rfl
  | case3 _ _ _ _ _ ih | case9 _ _ _ _ _ _ _ _ ih | case10 _ _ _ _ _ _ _ _ _ _ _ ih
  | case12 _ _ _ _ _ _ _ _ _ ih => exact (List.prefix_append _ _).trans (ih compiled)
  | case5 =>
      cases compiled
      exact directories _
  | case6 _ _ _ _ _ _ _ _ ih => exact (directories _).trans (ih compiled)
  | case4 | case7 | case8 | case11 => cases compiled

theorem compile_floating (rest : String) : compile ("**/" ++ rest) =
    compileFrom (rest.toList.length + 2) [.anyDirectories] (some '/') 3 rest.toList := by
  rw [compile, String.toList_append, List.length_append, Nat.add_comm]
  rfl

theorem exists_compile_floating {pattern : String} (floating : IsFloating pattern)
    {tokens : List Token} (compiled : compile pattern = .ok tokens) :
    ∃ others, tokens = .anyDirectories :: others := by
  obtain ⟨rest, rfl⟩ := floating
  rw [compile_floating] at compiled
  obtain ⟨others, rfl⟩ := prefix_of_compileFrom compiled
  exact ⟨others, rfl⟩

/-! ## Matching -/

theorem matchTokens_anyDirectories {tokens : List Token} {cs : List Char} :
    matchTokens (.anyDirectories :: tokens) cs = true ↔
      ∃ tail ∈ cs :: tailsAfterSlash cs, matchTokens tokens tail = true := by
  rw [matchTokens, List.any_eq_true]

theorem mem_tailsAfterSlash {cs tail : List Char} :
    tail ∈ tailsAfterSlash cs ↔ tail = [] ∨ ∃ front, cs = front ++ '/' :: tail := by
  induction cs with
  | nil => simp [tailsAfterSlash]
  | cons c cs ih =>
      have here : (∃ front, c :: cs = front ++ '/' :: tail) ↔
          (c = '/' ∧ tail = cs) ∨ ∃ front, cs = front ++ '/' :: tail := by
        constructor
        · rintro ⟨_ | ⟨d, front⟩, split⟩
          · cases split
            exact .inl ⟨rfl, rfl⟩
          · cases split
            exact .inr ⟨front, rfl⟩
        · rintro (⟨rfl, rfl⟩ | ⟨front, rfl⟩)
          · exact ⟨[], rfl⟩
          · exact ⟨c :: front, rfl⟩
      rw [tailsAfterSlash, here]
      split
      · rename_i slash
        rw [List.mem_cons, ih]
        simp only [slash, true_and]
        exact or_left_comm
      · rename_i other
        simp only [ih, other, false_and, false_or]

/-- What a pattern for every depth matches it matches below every directory. -/
theorem matches_below {pattern : String} (floating : IsFloating pattern) {tokens : List Token}
    (compiled : compile pattern = .ok tokens) {text : String}
    (matched : Glob.matches tokens text = true) (front : String) :
    Glob.matches tokens (front ++ "/" ++ text) = true := by
  obtain ⟨others, rfl⟩ := exists_compile_floating floating compiled
  rw [«matches», matchTokens_anyDirectories] at matched ⊢
  obtain ⟨tail, inside, rest⟩ := matched
  refine ⟨tail, List.mem_cons_of_mem _ (mem_tailsAfterSlash.mpr ?_), rest⟩
  have text' : (front ++ "/" ++ text).toList = front.toList ++ '/' :: text.toList := by simp
  rw [text']
  rcases List.mem_cons.mp inside with rfl | below
  · exact .inr ⟨_, rfl⟩
  · refine (mem_tailsAfterSlash.mp below).imp id ?_
    rintro ⟨passed, split⟩
    exact ⟨front.toList ++ '/' :: passed, by rw [split, List.append_assoc, List.cons_append]⟩

theorem matchesAny_below {patterns : List String} (floating : ∀ p ∈ patterns, IsFloating p)
    {text : String} (matched : matchesAny patterns text = true) (front : String) :
    matchesAny patterns (front ++ "/" ++ text) = true := by
  obtain ⟨p, member, tokens, compiled, matched⟩ := matchesAny_iff.mp matched
  exact matchesAny_iff.mpr
    ⟨p, member, tokens, compiled, matches_below (floating p member) compiled matched front⟩

theorem matchTokens_plainTokens_append {cs ds : List Char} {tokens : List Token} :
    matchTokens (plainTokens cs ++ tokens) ds = true ↔
      ∃ rest, ds = cs ++ rest ∧ matchTokens tokens rest = true := by
  induction cs generalizing ds with
  | nil => simp [plainTokens]
  | cons c cs ih =>
      cases ds with
      | nil => simp [plainTokens, matchTokens]
      | cons d ds =>
          rw [plainTokens, List.map_cons, List.cons_append, matchTokens, Bool.and_eq_true,
            CharTest.admits, decide_eq_true_eq, ← plainTokens, ih]
          simp only [List.cons_append, List.cons.injEq, and_assoc, exists_and_left]

theorem matchTokens_directories (cs : List Char) : matchTokens [.anyDirectories] cs = true :=
  matchTokens_anyDirectories.mpr
    ⟨[], List.mem_cons_of_mem _ (mem_tailsAfterSlash.mpr (.inl rfl)), rfl⟩

/-! ## Directories of one name -/

/-- The pattern for all that is in a directory of that name, at every depth. -/
def insidePattern (name : String) : String :=
  "**/" ++ (name ++ "/**")

theorem isFloating_insidePattern (name : String) : IsFloating (insidePattern name) :=
  ⟨_, rfl⟩

section Inside

variable {name : String} (wildless : ∀ c ∈ name.toList, isWild c = false)

include wildless

theorem compile_insidePattern : compile (insidePattern name) =
    .ok (.anyDirectories :: plainTokens (name.toList ++ ['/']) ++ [.anyDirectories]) := by
  have plain : ∀ c ∈ name.toList ++ ['/'], isWild c = false := by
    intro c member
    rcases List.mem_append.mp member with inside | slash
    · exact wildless c inside
    · cases List.mem_singleton.mp slash
      decide
  have text : (name ++ "/**").toList = (name.toList ++ ['/']) ++ ['*', '*'] := by simp
  rw [insidePattern, compile_floating, text, List.length_append, Nat.add_assoc,
    compileFrom_plain plain, List.getLast?_concat]
  change Except.ok (addDirectories _) = _
  rw [addDirectories, if_neg]
  · rfl
  · rintro ⟨_, last⟩
    simp [plainTokens, List.getLast?_cons] at last

/-- It matches what a directory of that name leads to. -/
theorem matchesAny_insidePattern (piece : Path.IsPiece name) {p : Path} :
    matchesAny [insidePattern name] p.text = true ↔ name ∈ p.pieces.dropLast := by
  have begins (cs : List Char) : matchTokens (plainTokens (name.toList ++ ['/']) ++
      [.anyDirectories]) cs = true ↔ ∃ rest, cs = name.toList ++ '/' :: rest := by
    rw [matchTokens_plainTokens_append]
    simp [matchTokens_directories]
  simp only [matchesAny_iff, List.mem_singleton, exists_eq_left, compile_insidePattern wildless,
    Except.ok.injEq]
  rw [exists_eq_left', «matches», List.cons_append, matchTokens_anyDirectories]
  simp only [begins]
  have pieces : name ∈ p.pieces.dropLast ↔
      name.toList ∈ (Text.cutChars '/' p.text.toList).dropLast := by
    rw [Path.pieces, Text.cut, ← List.map_dropLast, List.mem_map]
    constructor
    · rintro ⟨part, member, rfl⟩
      rwa [String.toList_ofList]
    · exact fun member => ⟨_, member, String.ofList_toList⟩
  rw [pieces, Text.mem_dropLast_cutChars_iff piece]
  simp only [List.mem_cons, mem_tailsAfterSlash]
  constructor
  · rintro ⟨tail, rfl | rfl | ⟨front, split⟩, rest, begin⟩
    · exact .inl ⟨rest, begin⟩
    · simp at begin
    · exact .inr ⟨front, rest, split.trans (by rw [begin])⟩
  · rintro (⟨rest, begin⟩ | ⟨front, rest, split⟩)
    · exact ⟨_, .inl rfl, rest, begin⟩
    · exact ⟨_, .inr (.inr ⟨front, split⟩), rest, rfl⟩

end Inside

end Glob

end SourceLint
