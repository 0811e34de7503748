import SourceLint.Discovery
import SourceLint.Proofs.FileTree.Routes
import SourceLint.Proofs.Glob.Plain

/-! # The names of source files

Whatever the root of a project is called and whatever its name means as a pattern, what is
discovered is called something that ends in `.rs`.
-/

namespace SourceLint

open Glob

/-- The tokens for the name of a source file. -/
def sourceTokens : List Token :=
  .anyText :: plainTokens ".rs".toList

theorem compile_sourceName : Piece.compile "*.rs" = .ok (.wildcard sourceTokens) := by
  decide

theorem matches_sourceTokens {name : String} :
    Glob.matches sourceTokens name = true ↔ ".rs".toList <:+ name.toList :=
  matchTokens_star_plainTokens

theorem matches_sourceTokens_iff_endsWith {name : String} :
    Glob.matches sourceTokens name = true ↔ name.endsWith ".rs" = true := by
  rw [matches_sourceTokens, ← String.endsWith_toSlice, String.Slice.endsWith_string_iff,
    String.copy_toSlice]

theorem pieces_sourcePattern (root : Path) :
    Path.pieces ⟨sourcePattern root⟩ = root.pieces ++ ["**", "*.rs"] := by
  have split := Path.pieces_append root.text "**/*.rs"
  rwa [String.append_assoc] at split

theorem splitRoot_append (pieces : List String) :
    splitRoot (pieces ++ ["**", "*.rs"]) =
      ((splitRoot pieces).1, (splitRoot pieces).2 ++ ["**", "*.rs"]) := by
  cases pieces with
  | nil => rfl
  | cons first rest =>
      by_cases slash : first = ""
      · simp [splitRoot, slash]
      · simp [splitRoot, slash]

theorem mem_splitRoot {pieces : List String} {s : String} (member : s ∈ (splitRoot pieces).2) :
    s ∈ pieces := by
  rw [splitRoot] at member
  split at member
  · exact List.mem_of_mem_tail member
  · exact member

theorem matches_of_mem_namesIn {tree : FileTree} {dir : Path} {tokens : List Token} {name : String}
    (found : name ∈ Piece.namesIn tree dir tokens) : Glob.matches tokens name = true := by
  rw [Piece.namesIn] at found
  split at found
  · rcases List.mem_append.mp found with special | listed
    · rw [Piece.specialNames] at special
      split at special
      · exact (List.mem_filter.mp special).2
      · cases special
    · exact (List.mem_filter.mp listed).2
  · cases found

/-- What a pattern leads to is called what its last piece asks for. -/
theorem exists_child_of_mem_expandFrom {tree : FileTree} {tokens : List Token} {p : Path}
    {pieces : List Piece} {dir : Path} (last : pieces.getLast? = some (.wildcard tokens))
    (found : p ∈ expandFrom tree pieces dir) :
    ∃ (above : Path) (name : String), p = above.child name ∧ Glob.matches tokens name = true := by
  have rest {piece : Piece} {pieces : List Piece} (some : pieces ≠ [])
      (last : (piece :: pieces).getLast? = Option.some (.wildcard tokens)) :
      pieces.getLast? = Option.some (.wildcard tokens) := by
    rwa [List.getLast?_cons_of_ne_nil some] at last
  -- It is the last piece that names what is found, and each step before keeps the last piece.
  induction pieces, dir using expandFrom.induct tree with
  | case1 dir => cases last
  | case2 name pieces dir leads ih =>
      rw [expandFrom, if_pos leads] at found
      cases pieces with
      | nil => cases last
      | cons piece pieces => exact ih (rest (List.cons_ne_nil piece pieces) last) found
  | case3 name pieces dir leads =>
      rw [expandFrom, if_neg leads] at found
      cases found
  | case4 others pieces dir ih =>
      rw [expandFrom, List.mem_flatMap] at found
      obtain ⟨name, named, found⟩ := found
      cases pieces with
      | nil =>
          cases last
          rw [expandFrom, List.mem_singleton] at found
          exact ⟨dir, name, found, matches_of_mem_namesIn named⟩
      | cons piece pieces => exact ih name (rest (List.cons_ne_nil piece pieces) last) found
  | case5 pieces dir ih =>
      rw [expandFrom] at found
      exact ih (rest (List.cons_ne_nil _ pieces) last) found
  | case6 piece pieces dir other ih =>
      rw [expandFrom, List.mem_flatMap] at found
      · obtain ⟨⟨path, name⟩, listed, found⟩ := found
        dsimp only at found
        split at found
        · rename_i admitted
          cases pieces with
          | nil =>
              cases last
              rw [expandFrom, List.mem_singleton] at found
              obtain ⟨above, rfl⟩ := FileTree.exists_child_of_mem_descendants listed
              exact ⟨above, name, found, admitted⟩
          | cons next pieces =>
              have more := rest (List.cons_ne_nil _ _) last
              exact ih path (rest (List.cons_ne_nil _ pieces) more) found
        · cases found
      · exact other
  | case7 dir => cases last

theorem getLast?_of_mapM_compile {spellings : List String} {pieces : List Piece}
    (compiled : (spellings ++ ["**", "*.rs"]).mapM Piece.compile = .ok pieces) :
    pieces.getLast? = some (.wildcard sourceTokens) := by
  rw [List.append_cons, List.mapM_append, List.mapM_cons, compile_sourceName] at compiled
  cases first : (spellings ++ ["**"]).mapM Piece.compile with
  | error e =>
      rw [first] at compiled
      cases compiled
  | ok front =>
      rw [first] at compiled
      cases compiled
      simp

theorem expand_eq_ok_iff {tree : FileTree} {pattern : String} {paths : List Path} :
    expand tree pattern = .ok paths ↔ ∃ tokens pieces, compile pattern = .ok tokens ∧
      (splitRoot (Path.pieces ⟨pattern⟩)).2.mapM Piece.compile = .ok pieces ∧
        expandFrom tree pieces (splitRoot (Path.pieces ⟨pattern⟩)).1 = paths := by
  rw [expand]
  cases compile pattern with
  | error e => exact ⟨nofun, nofun⟩
  | ok tokens =>
      change ((splitRoot (Path.pieces ⟨pattern⟩)).2.mapM Piece.compile >>= fun pieces =>
        .ok (expandFrom tree pieces (splitRoot (Path.pieces ⟨pattern⟩)).1)) = .ok paths ↔ _
      cases (splitRoot (Path.pieces ⟨pattern⟩)).2.mapM Piece.compile with
      | error e => exact ⟨nofun, nofun⟩
      | ok pieces =>
          constructor
          · intro expanded
            exact ⟨tokens, pieces, rfl, rfl, Except.ok.inj expanded⟩
          · rintro ⟨_, _, _, same, expanded⟩
            cases same
            exact congrArg Except.ok expanded

theorem discover_eq_ok_iff {tree : FileTree} {root : Path} {excludes : List String}
    {paths : List Path} : discover tree root excludes = .ok paths ↔
      ∃ all, expand tree (sourcePattern root) = .ok all ∧
        all.filter (fun path => !isExcluded excludes path) = paths := by
  rw [discover]
  cases expand tree (sourcePattern root) <;> simp [Except.map]

/-- What the pattern for source files leads to is called something that ends in `.rs`. -/
theorem suffix_of_mem_expand {tree : FileTree} {root : Path} {paths : List Path}
    (expanded : expand tree (sourcePattern root) = .ok paths) :
    ∀ p ∈ paths, ".rs".toList <:+ p.text.toList := by
  intro p member
  obtain ⟨_, pieces, _, compiled, rfl⟩ := expand_eq_ok_iff.mp expanded
  rw [pieces_sourcePattern, splitRoot_append] at compiled
  obtain ⟨above, name, rfl, matched⟩ := exists_child_of_mem_expandFrom
    (getLast?_of_mapM_compile compiled) member
  obtain ⟨front, text⟩ := above.exists_text_join ⟨name⟩
  rw [Path.child, text, String.toList_append]
  exact (matches_sourceTokens.mp matched).trans (List.suffix_append _ _)

theorem inked_of_mem_expand {tree : FileTree} {root : Path} {paths : List Path}
    (expanded : expand tree (sourcePattern root) = .ok paths) :
    ∀ p ∈ paths, Text.isBlankText p.text = false := by
  intro p member
  have inside : 'r' ∈ p.text.toList := (suffix_of_mem_expand expanded p member).subset (by decide)
  exact List.all_eq_false.mpr ⟨'r', inside, by decide⟩

end SourceLint
