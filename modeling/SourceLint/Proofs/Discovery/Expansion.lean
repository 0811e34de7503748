import SourceLint.Proofs.Discovery.Names
import SourceLint.Proofs.FileTree.Proper

/-! # Following a plain root

Where the spelling of a root has no wildcards in it, the pattern for source files follows it
piece by piece to the directory it names, and takes from there whatever is called something
that ends in `.rs`.
-/

namespace SourceLint

open Glob FileTree

/-- What a path is spelled by holds no wildcards. -/
def Path.IsPlain (p : Path) : Prop :=
  ∀ c ∈ p.text.toList, isWild c = false

instance (p : Path) : Decidable p.IsPlain :=
  decidable_of_iff (p.text.toList.all fun c => !isWild c) (by simp [Path.IsPlain])

variable {tree : FileTree} {dir : Path}

/-! ## Literal pieces -/

theorem directory_of_foldlM_step {names : List String} {way : FileTree × List FileTree}
    {entries : List (String × FileTree)} {above : List FileTree}
    (found : names.foldlM step way = .ok (directory entries, above)) :
    ∃ here passed, way = (directory here, passed) := by
  obtain ⟨_ | here, passed⟩ := way
  · cases names <;> cases found
  · exact ⟨here, passed, rfl⟩

/-- A special piece leads on from every directory. -/
theorem exists_step_special (entries : List (String × FileTree)) (above : List FileTree)
    {s : String} (special : s = "." ∨ s = "..") :
    ∃ next, step (directory entries, above) s = .ok next := by
  rcases special with rfl | rfl
  · exact ⟨_, rfl⟩
  · cases above <;> exact ⟨_, rfl⟩

theorem leads_iff {t : FileTree} {s : String} (found : tree.find dir = .ok t)
    (piece : Path.IsPiece s) :
    Piece.leads tree dir s = true ↔ ∃ next, tree.find (dir.join ⟨s⟩) = .ok next := by
  rw [Piece.leads]
  split
  · rename_i special
    obtain ⟨above, way⟩ := exists_way found
    rw [FileTree.isDirectory, found, find_join way piece]
    cases t with
    | file bytes => simp [step, Except.map]
    | directory entries =>
        obtain ⟨next, on⟩ := exists_step_special entries above special
        simp [on, Except.map]
  · rw [FileTree.exists]
    cases tree.find (dir.join ⟨s⟩) <;> simp [Except.toBool]

/-- Literal pieces lead on as looking up does. -/
theorem expandFrom_literals {pieces : List String} (free : ∀ s ∈ pieces, Path.IsPiece s)
    (rest : List Piece) {here entries : List (String × FileTree)} {above passed : List FileTree}
    (way : dir.stem.foldlM step (tree, []) = .ok (directory here, above))
    (on : pieces.foldlM step (directory here, above) = .ok (directory entries, passed)) :
    expandFrom tree (pieces.map .literal ++ rest) dir = expandFrom tree rest (dir.descend pieces) ∧
      (dir.descend pieces).stem.foldlM step (tree, []) = .ok (directory entries, passed) := by
  induction pieces generalizing dir here above with
  | nil =>
      cases on
      exact ⟨rfl, way⟩
  | cons s pieces ih =>
      have piece := free s List.mem_cons_self
      rw [List.foldlM_cons] at on
      cases next : step (directory here, above) s with
      | error e =>
          rw [next] at on
          cases on
      | ok there =>
          rw [next] at on
          obtain ⟨here', above', rfl⟩ := directory_of_foldlM_step on
          have way' : (dir.join ⟨s⟩).stem.foldlM step (tree, []) = .ok (directory here', above') := by
            rw [Path.stem_join dir piece]
            split
            · rename_i empty
              rw [empty, step_empty] at next
              cases next
              exact way
            · rw [List.foldlM_append, way]
              change (step (directory here, above) s >>= fun way => .ok way) = _
              rw [next]
              rfl
          have there : tree.find (dir.join ⟨s⟩) = .ok (directory here') := by
            rw [find_join way piece, next]
            rfl
          have leads := (leads_iff (find_of_way way) piece).mpr ⟨_, there⟩
          rw [List.map_cons, List.cons_append, expandFrom, if_pos leads]
          exact ih (fun t member => free t (List.mem_cons_of_mem _ member)) way' on

/-! ## The root of the file system -/

/-- A pattern that starts at the root of the file system starts there whatever slashes follow. -/
theorem splitRoot_of_isAbsolute {root : Path} (absolute : root.isAbsolute = true) :
    splitRoot root.pieces = (⟨"/"⟩, root.pieces.tail) := by
  obtain ⟨rest, _, pieces⟩ := Path.pieces_of_isAbsolute absolute
  rw [splitRoot, pieces, List.head?_cons, if_pos rfl]

theorem stem_slash : Path.stem ⟨"/"⟩ = [""] := by
  decide +kernel

theorem step_nothing (entries : List (String × FileTree)) (above : List FileTree) :
    step (directory entries, above) "" = .ok (directory entries, above) := by
  simp only [step, true_or, if_true]

/-- Where a pattern starts is the root of the tree. -/
theorem foldlM_stem_splitRoot (pieces : List String) (entries : List (String × FileTree)) :
    (splitRoot pieces).1.stem.foldlM step (directory entries, []) =
      .ok (directory entries, []) := by
  rw [splitRoot]
  split
  · rw [stem_slash, List.foldlM_cons, step_nothing]
    rfl
  · rfl

/-- The root of a project as its pattern leads to it. -/
def Path.walked (root : Path) : Path :=
  (splitRoot root.pieces).1.descend (splitRoot root.pieces).2

theorem isPiece_splitRoot {root : Path} : ∀ s ∈ (splitRoot root.pieces).2, Path.IsPiece s :=
  fun _ member => Path.isPiece_of_mem_pieces (mem_splitRoot member)

theorem isAbsolute_walked {root : Path} (absolute : root.isAbsolute = true) :
    root.walked.isAbsolute = true := by
  rw [Path.walked, splitRoot_of_isAbsolute absolute]
  exact Path.isAbsolute_descend (Path.isAbsolute_iff.mpr ⟨"", rfl⟩) _

/-- The root keeps its components. -/
theorem components_walked {root : Path} (absolute : root.isAbsolute = true) :
    root.walked.components = root.components := by
  obtain ⟨rest, stem, components⟩ := Path.components_stem (isAbsolute_walked absolute)
  rw [Path.walked, Path.stem_descend _ isPiece_splitRoot, splitRoot_of_isAbsolute absolute,
    stem_slash, List.singleton_append, List.cons.injEq] at stem
  have dropped (pieces : List String) :
      (pieces.filter (· ≠ "")).filterMap Path.Component.ofPiece =
        pieces.filterMap Path.Component.ofPiece := by
    induction pieces with
    | nil => rfl
    | cons s others ih =>
        by_cases empty : s = ""
        · subst empty
          exact ih
        · rw [List.filter_cons_of_pos (by simpa using empty), List.filterMap_cons,
            List.filterMap_cons, ih]
  rw [components, ← stem.2, dropped, Path.components_of_isAbsolute absolute]

/-! ## The pattern for source files -/

theorem compile_plainPiece {s : String} (wildless : ∀ c ∈ s.toList, isWild c = false) :
    Piece.compile s = .ok (.literal s) := by
  have one : plainTokens s.toList ≠ [.anyDirectories] := by
    cases s.toList <;> simp [plainTokens]
  have plain : (plainTokens s.toList).all Piece.isPlain = true := by
    simp [plainTokens, Piece.isPlain]
  rw [Piece.compile, compile_plain wildless]
  simp [Except.map, one, plain]

theorem mapM_compile_plain {pieces : List String}
    (wildless : ∀ s ∈ pieces, ∀ c ∈ s.toList, isWild c = false) :
    (pieces ++ ["**", "*.rs"]).mapM Piece.compile =
      .ok (pieces.map .literal ++ [.directories, .wildcard sourceTokens]) := by
  induction pieces with
  | nil => decide
  | cons s rest ih =>
      rw [List.cons_append, List.mapM_cons, compile_plainPiece (wildless s List.mem_cons_self),
        ih fun t member => wildless t (List.mem_cons_of_mem _ member)]
      rfl

theorem exists_compile_sourcePattern {root : Path} (plain : root.IsPlain) :
    ∃ tokens, compile (sourcePattern root) = .ok tokens := by
  have wildless : ∀ c ∈ (root.text ++ "/").toList, isWild c = false := by
    intro c member
    rw [String.toList_append] at member
    rcases List.mem_append.mp member with inside | slash
    · exact plain c inside
    · cases List.mem_singleton.mp slash
      decide
  have split := compile_append wildless "**/*.rs"
  rw [String.append_assoc, String.toList_append, List.getLast?_append] at split
  exact ⟨_, split⟩

theorem expandFrom_below (dir : Path) :
    expandFrom tree [.directories, .wildcard sourceTokens] dir =
      ((tree.descendants dir).filter fun e => Glob.matches sourceTokens e.2).map Prod.fst := by
  rw [expandFrom]
  · induction tree.descendants dir with
    | nil => rfl
    | cons e rest ih =>
        rw [List.flatMap_cons, ih, List.filter_cons]
        change (if Piece.admits e.2 (.wildcard sourceTokens) then expandFrom tree [] e.1 else []) ++
          _ = _
        rw [show Piece.admits e.2 (.wildcard sourceTokens) = Glob.matches sourceTokens e.2 from rfl]
        by_cases matched : Glob.matches sourceTokens e.2 = true
        · rw [if_pos matched, if_pos matched, expandFrom]
          rfl
        · rw [if_neg matched, if_neg matched]
          rfl
  · intro same
    cases same

/-- The paths of all below `dir` that is called by the name of a source file. -/
def sourcesBelow (dir : Path) (t : FileTree) : List Path :=
  ((t.contents dir).filter fun e => Glob.matches sourceTokens e.2).map Prod.fst

theorem mem_sourcesBelow_iff {t : FileTree} {path : Path} : path ∈ sourcesBelow dir t ↔
    ∃ names name last, Leads t (names ++ [name]) last ∧ name.endsWith ".rs" = true ∧
      path = dir.descend (names ++ [name]) := by
  rw [sourcesBelow, List.mem_map]
  constructor
  · rintro ⟨⟨_, name⟩, inside, rfl⟩
    obtain ⟨listed, matched⟩ := List.mem_filter.mp inside
    obtain ⟨names, last, leads, route⟩ := (mem_contents _ _ name t).mp listed
    exact ⟨names, name, last, leads, matches_sourceTokens_iff_endsWith.mp matched, route⟩
  · rintro ⟨names, name, last, leads, named, rfl⟩
    have listed := (mem_contents dir _ name t).mpr ⟨names, last, leads, rfl⟩
    exact ⟨_, List.mem_filter.mpr ⟨listed, matches_sourceTokens_iff_endsWith.mpr named⟩, rfl⟩

/-- Below another path there are the same source files. -/
theorem sourcesBelow_carried {move : Path → Path} {other : Path} (carries : Carries move dir other)
    {t : FileTree} (proper : Proper t) :
    sourcesBelow other t = (sourcesBelow dir t).map move := by
  rw [sourcesBelow, contents_carried carries t proper, List.filter_map, sourcesBelow, List.map_map,
    List.map_map]
  rfl

section Root

variable {root : Path} {entries : List (String × FileTree)} (absolute : root.isAbsolute = true)
  (found : tree.find root = .ok (directory entries))

include absolute found

/-- The pattern follows the root to the directory that it names. -/
theorem expandFrom_walked (rest : List Piece) :
    expandFrom tree ((splitRoot root.pieces).2.map .literal ++ rest) (splitRoot root.pieces).1 =
        expandFrom tree rest root.walked ∧
      tree.find root.walked = .ok (directory entries) := by
  obtain ⟨passed, way⟩ := exists_passed found
  obtain ⟨top, _, whole⟩ := directory_of_foldlM_step way
  cases whole
  have onward : (splitRoot root.pieces).2.foldlM step (directory top, []) =
      .ok (directory entries, passed) := by
    obtain ⟨others, _, pieces⟩ := Path.pieces_of_isAbsolute absolute
    rw [pieces, List.foldlM_cons, step_nothing] at way
    rw [splitRoot_of_isAbsolute absolute, pieces]
    exact way
  obtain ⟨expanded, walked⟩ := expandFrom_literals isPiece_splitRoot rest
    (foldlM_stem_splitRoot root.pieces top) onward
  exact ⟨expanded, find_of_way walked⟩

theorem find_walked : tree.find root.walked = .ok (directory entries) :=
  (expandFrom_walked absolute found []).2

/-- From a plain root the pattern leads to all that is called something that ends in `.rs`. -/
theorem expand_sourcePattern (plain : root.IsPlain) : expand tree (sourcePattern root) =
    .ok (((tree.descendants root.walked).filter
      fun e => Glob.matches sourceTokens e.2).map Prod.fst) := by
  obtain ⟨tokens, compiled⟩ := exists_compile_sourcePattern plain
  have wildless : ∀ s ∈ (splitRoot root.pieces).2, ∀ c ∈ s.toList, isWild c = false := by
    intro s member c inside
    exact plain c (Text.subset_of_mem_cut (mem_splitRoot member) inside)
  refine expand_eq_ok_iff.mpr ⟨tokens, (splitRoot root.pieces).2.map .literal ++
    [.directories, .wildcard sourceTokens], compiled, ?_, ?_⟩
  · rw [pieces_sourcePattern, splitRoot_append]
    exact mapM_compile_plain wildless
  · rw [pieces_sourcePattern, splitRoot_append]
    dsimp only
    rw [(expandFrom_walked absolute found _).1, expandFrom_below]

/-- From a plain root all source files below it are discovered that no exclude matches. -/
theorem discover_plain (plain : root.IsPlain) (excludes : List String) :
    discover tree root excludes = .ok ((sourcesBelow root.walked (directory entries)).filter
      fun path => !isExcluded excludes path) := by
  have expanded := expand_sourcePattern absolute found plain
  rw [descendants, find_walked absolute found] at expanded
  exact discover_eq_ok_iff.mpr ⟨_, expanded, rfl⟩

end Root

end SourceLint
