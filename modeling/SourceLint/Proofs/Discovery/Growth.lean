import SourceLint.Proofs.Discovery.Expansion
import SourceLint.Proofs.FileTree.Growth

/-! # Patterns over a tree that gains an entry

A pattern leads to what it led to before, in the same order. What is new is found in between, and
only at the entry: if nothing is made of that, what a pattern leads to comes to the same. Where the
entry is an empty directory this takes a pattern that does not lead back up from it.
-/

namespace SourceLint

open Glob FileTree

open SourceLint.Path (IsName)

variable {name : String} {entry t tree tree' : FileTree} {dir : Path} {pieces : List Piece}
  {bytes : ByteArray} {B : Type} {made made' : Path → Option B}

/-! ## From where there is nothing below -/

theorem namesIn_file {tokens : List Token} (found : tree.find dir = .ok (file bytes)) :
    Piece.namesIn tree dir tokens = [] := by
  rw [Piece.namesIn, FileTree.isDirectory, found]
  rfl

theorem namesIn_directory {entries : List (String × FileTree)} {tokens : List Token}
    (found : tree.find dir = .ok (directory entries)) : Piece.namesIn tree dir tokens =
      Piece.specialNames tokens ++
        ((byName entries).map Prod.fst).filter (Glob.matches tokens) := by
  rw [Piece.namesIn, FileTree.isDirectory, FileTree.names, found]
  rfl

/-- No literal piece of a pattern has a slash in it. -/
def AreCut (pieces : List Piece) : Prop :=
  ∀ s, .literal s ∈ pieces → Path.IsPiece s

theorem AreCut.of_suffix {rest : List Piece} (cut : AreCut pieces) (suffix : rest <:+ pieces) :
    AreCut rest :=
  fun s member => cut s (suffix.subset member)

/-- From a file a pattern leads nowhere. -/
theorem expandFrom_file (some : pieces ≠ []) (cut : AreCut pieces)
    (found : tree.find dir = .ok (file bytes)) : expandFrom tree pieces dir = [] := by
  have nothing : tree.descendants dir = [] := by
    rw [descendants, found]
    rfl
  induction pieces, dir using expandFrom.induct tree with
  | case1 dir => exact absurd rfl some
  | case2 s pieces dir leads ih =>
      have piece := cut s List.mem_cons_self
      obtain ⟨next, there⟩ := (leads_iff found piece).mp leads
      obtain ⟨above, way⟩ := exists_way found
      rw [find_join way piece] at there
      cases there
  | case3 s pieces dir leads => rw [expandFrom, if_neg leads]
  | case4 tokens pieces dir ih =>
      rw [expandFrom, namesIn_file found]
      rfl
  | case5 pieces dir ih =>
      rw [expandFrom]
      exact ih (List.cons_ne_nil _ _) (cut.of_suffix (List.suffix_cons _ _)) found nothing
  | case6 piece pieces dir other ih =>
      rw [expandFrom, nothing]
      · rfl
      · exact other
  | case7 dir =>
      rw [expandFrom, nothing]
      rfl

/-- The piece may lead from a directory to the one above. -/
def Glob.Piece.leadsUp : Piece → Bool
  | .literal s => s = ".."
  | .wildcard tokens => ".." ∈ specialNames tokens
  | .directories => false

theorem eq_of_mem_specialNames {tokens : List Token} {s : String}
    (special : s ∈ Piece.specialNames tokens) : s = ".." ∨ s = "." := by
  rw [Piece.specialNames] at special
  split at special
  · simpa using (List.mem_filter.mp special).1
  · cases special

/-- The pieces are the last ones of a pattern for source files, and none of them may lead up. -/
structure StayBelow (pieces : List Piece) : Prop where
  ends : pieces = [] ∨ pieces.getLast? = some (.wildcard sourceTokens)
  stays : ∀ piece ∈ pieces, piece.leadsUp = false
  cut : AreCut pieces

theorem StayBelow.of_suffix {rest : List Piece} (below : StayBelow pieces)
    (suffix : rest <:+ pieces) : StayBelow rest where
  ends := by
    refine or_iff_not_imp_left.mpr fun some => ?_
    obtain ⟨front, rfl⟩ := suffix
    rcases below.ends with none | last
    · exact absurd (List.append_eq_nil_iff.mp none).2 some
    · rwa [List.getLast?_append_of_ne_nil _ some] at last
  stays p member := below.stays p (suffix.subset member)
  cut := below.cut.of_suffix suffix

theorem StayBelow.tail {piece : Piece} (below : StayBelow (piece :: pieces)) : StayBelow pieces :=
  below.of_suffix (List.suffix_cons _ _)

theorem StayBelow.ne_nil {piece : Piece} (below : StayBelow (piece :: pieces))
    (other : piece ≠ .wildcard sourceTokens) : pieces ≠ [] := by
  rintro rfl
  rcases below.ends with none | last
  · cases none
  · exact other (Option.some.inj last)

theorem find_join_here {s : String} (found : tree.find dir = .ok (directory []))
    (special : s = "" ∨ s = ".") : tree.find (dir.join ⟨s⟩) = .ok (directory []) := by
  obtain ⟨above, way⟩ := exists_way found
  have piece : Path.IsPiece s := by rcases special with rfl | rfl <;> simp [Path.IsPiece]
  rw [find_join way piece, step.eq_def]
  dsimp only
  rw [if_pos special]
  rfl

/-- In an empty directory a piece that does not lead up leads to where it is, if anywhere. -/
theorem here_of_leads {s : String} (piece : Path.IsPiece s) (stays : s ≠ "..")
    (found : tree.find dir = .ok (directory [])) (leads : Piece.leads tree dir s = true) :
    s = "" ∨ s = "." := by
  by_contra other
  obtain ⟨next, there⟩ := (leads_iff found piece).mp leads
  obtain ⟨above, way⟩ := exists_way found
  rw [find_join way piece, step.eq_def] at there
  dsimp only at there
  rw [if_neg other, if_neg stays] at there
  cases there

/-- From an empty directory a pattern for source files leads nowhere, unless it leads back up. -/
theorem expandFrom_empty (some : pieces ≠ []) (below : StayBelow pieces)
    (found : tree.find dir = .ok (directory [])) : expandFrom tree pieces dir = [] := by
  have nothing {dir : Path} (found : tree.find dir = .ok (directory [])) :
      tree.descendants dir = [] := by
    rw [descendants, found]
    simp [contents_directory, byName]
  induction pieces, dir using expandFrom.induct tree with
  | case1 dir => exact absurd rfl some
  | case2 s pieces dir leads ih =>
      have stays : s ≠ ".." := by simpa [Piece.leadsUp] using below.stays _ List.mem_cons_self
      have here := here_of_leads (below.cut s List.mem_cons_self) stays found leads
      rw [expandFrom, if_pos leads]
      exact ih (below.ne_nil (by simp)) below.tail (find_join_here found here)
  | case3 s pieces dir leads => rw [expandFrom, if_neg leads]
  | case4 tokens pieces dir ih =>
      rw [expandFrom, List.flatMap_eq_nil_iff]
      intro s listed
      have special : s ∈ Piece.specialNames tokens := by
        simpa [namesIn_directory found, byName] using listed
      rcases eq_of_mem_specialNames special with rfl | rfl
      · have stays := below.stays _ List.mem_cons_self
        rw [Piece.leadsUp, decide_eq_false_iff_not] at stays
        exact absurd special stays
      · have others : tokens ≠ sourceTokens := by
          rintro rfl
          exact absurd special (by decide)
        exact ih _ (below.ne_nil (by simpa using others)) below.tail
          (find_join_here found (.inr rfl))
  | case5 pieces dir ih =>
      rw [expandFrom]
      exact ih (List.cons_ne_nil _ _) below.tail found
  | case6 piece pieces dir other ih =>
      rw [expandFrom, nothing found]
      · rfl
      · exact other
  | case7 dir =>
      rw [expandFrom, nothing found]
      rfl

/-! ## Before and after -/

/-- Nothing is made of what the pieces lead to from the entry. -/
structure Ignores (tree' : FileTree) (name : String) (entry : FileTree) (made' : Path → Option B)
    (pieces : List Piece) : Prop where
  cut : AreCut pieces
  ends : pieces.getLast? ≠ some .directories
  quiet {piece : Piece} {rest : List Piece} (inside : piece :: rest <:+ pieces)
    (admits : piece.admits name = true) {path : Path} (found : tree'.find path = .ok entry) :
    (expandFrom tree' rest path).filterMap made' = []

theorem Ignores.tail {piece : Piece} (ignores : Ignores tree' name entry made' (piece :: pieces)) :
    Ignores tree' name entry made' pieces where
  cut := ignores.cut.of_suffix (List.suffix_cons _ _)
  ends last := by
    cases pieces with
    | nil => cases last
    | cons next rest => exact ignores.ends (by rwa [List.getLast?_cons_cons])
  quiet inside := ignores.quiet (inside.trans (List.suffix_cons _ _))

theorem exists_of_mem_contents {path : Path} {s : String} (found : tree.find dir = .ok t)
    (proper : Proper t) (listed : (path, s) ∈ t.contents dir) :
    ∃ sub, tree.find path = .ok sub := by
  obtain ⟨names, last, leads, rfl⟩ := (mem_contents dir path s t).mp listed
  cases t with
  | file bytes => cases names <;> cases leads
  | directory entries => exact ⟨last, find_descend found proper leads (by simp)⟩

theorem find_child {entries : List (String × FileTree)} {s : String} {sub : FileTree}
    (proper : Proper tree) (found : tree.find dir = .ok (directory entries))
    (member : (s, sub) ∈ entries) : tree.find (dir.child s) = .ok sub := by
  have leads : Leads (directory entries) [s] sub := .into member (.here sub)
  have descends : dir.descend [s] = dir.child s := rfl
  rw [← descends]
  exact find_descend found (proper.find found) leads (List.cons_ne_nil _ _)

/-- What a piece matches is there. -/
theorem exists_of_mem_namesIn {tokens : List Token} {s : String} (proper : Proper tree)
    (found : tree.find dir = .ok t) (listed : s ∈ Piece.namesIn tree dir tokens) :
    ∃ sub, tree.find (dir.child s) = .ok sub := by
  cases t with
  | file bytes =>
      rw [namesIn_file found] at listed
      cases listed
  | directory entries =>
      rw [namesIn_directory found] at listed
      rcases List.mem_append.mp listed with special | named
      · obtain ⟨above, way⟩ := exists_way found
        have here := (eq_of_mem_specialNames special).symm
        obtain ⟨next, on⟩ := exists_step_special entries above here
        have piece : Path.IsPiece s := by rcases here with rfl | rfl <;> simp [Path.IsPiece]
        rw [Path.child, find_join way piece, on]
        exact ⟨next.1, rfl⟩
      · obtain ⟨⟨_, sub⟩, member, rfl⟩ := List.mem_map.mp (List.mem_filter.mp named).1
        exact ⟨sub, find_child proper found (mem_byName.mp member)⟩

theorem flatMap_insert {A : Type} {f : A → List B} {front back : List A} {a : A}
    (none : f a = []) : (front ++ a :: back).flatMap f = (front ++ back).flatMap f := by
  rw [List.flatMap_append, List.flatMap_cons, none, List.nil_append, List.flatMap_append]

/-- Whether a pattern compiles does not depend on the tree. -/
theorem expand_eq_map (tree : FileTree) (pattern : String) : expand tree pattern =
    (compile pattern >>= fun _ => (splitRoot (Path.pieces ⟨pattern⟩)).2.mapM Piece.compile).map
      fun pieces => expandFrom tree pieces (splitRoot (Path.pieces ⟨pattern⟩)).1 := by
  rw [expand]
  cases compile pattern with
  | error e => rfl
  | ok tokens =>
      change ((splitRoot (Path.pieces ⟨pattern⟩)).2.mapM Piece.compile >>= fun pieces =>
        .ok (expandFrom tree pieces (splitRoot (Path.pieces ⟨pattern⟩)).1)) = Except.map _
          ((splitRoot (Path.pieces ⟨pattern⟩)).2.mapM Piece.compile)
      cases (splitRoot (Path.pieces ⟨pattern⟩)).2.mapM Piece.compile <;> rfl

theorem find_splitRoot {entries : List (String × FileTree)} {spellings : List String} :
    (directory entries).find (splitRoot spellings).1 = .ok (directory entries) :=
  find_of_way (foldlM_stem_splitRoot spellings entries)

/-- A piece that has led nowhere leads to the entry, if anywhere. -/
theorem FileTree.Gains.leads_newly {t' : FileTree} {s : String} (gains : Gains name entry tree tree')
    (piece : Path.IsPiece s) (found : tree.find dir = .ok t) (found' : tree'.find dir = .ok t')
    (before : ¬ Piece.leads tree dir s = true) (after : Piece.leads tree' dir s = true) :
    s = name ∧ tree'.find (dir.join ⟨s⟩) = .ok entry := by
  obtain ⟨next, there⟩ := (leads_iff found' piece).mp after
  rw [leads_iff found piece] at before
  have alike := gains.find_join found piece
  cases absent : tree.find (dir.join ⟨s⟩) with
  | ok next => exact absurd ⟨next, absent⟩ before
  | error e =>
      rw [absent, there] at alike
      cases alike with
      | gained called => exact ⟨called, there⟩

section Gains

variable (gains : Gains name entry tree tree') (proper : Proper tree) (proper' : Proper tree')

include gains proper proper'

/-- What is made of the names that tokens match comes to the same where nothing is made of the
entry. -/
theorem flatMap_namesIn {tokens : List Token} {f f' : String → List B}
    (found : tree.find dir = .ok t)
    (kept : ∀ s sub, tree.find (dir.child s) = .ok sub → f' s = f s)
    (quiet : Glob.matches tokens name = true → tree'.find (dir.child name) = .ok entry →
      f' name = []) :
    (Piece.namesIn tree' dir tokens).flatMap f' = (Piece.namesIn tree dir tokens).flatMap f := by
  obtain ⟨t', found', grown⟩ := gains.find found
  have same : (Piece.namesIn tree dir tokens).flatMap f' =
      (Piece.namesIn tree dir tokens).flatMap f := by
    refine List.flatMap_congr fun s listed => ?_
    obtain ⟨sub, there⟩ := exists_of_mem_namesIn proper found listed
    exact kept s sub there
  rw [← same]
  cases t with
  | file bytes =>
      rw [namesIn_file found, namesIn_file (grown.file ▸ found')]
  | directory entries =>
      obtain ⟨entries', rfl⟩ := grown.directory
      have distinct : (entries'.map Prod.fst).Nodup := by
        obtain _ | ⟨distinct, _, _⟩ := proper'.find found'
        exact distinct
      rw [namesIn_directory found, namesIn_directory found']
      rcases grown.names distinct with same | ⟨front, back, listed, listed', member⟩
      · rw [same]
      · rw [listed, listed', List.filter_append, List.filter_cons, List.filter_append]
        split
        · rename_i admits
          rw [← List.append_assoc, ← List.append_assoc,
            flatMap_insert (quiet admits (find_child proper' found' member))]
        · rfl

variable (bare : entry.entries = [])

include bare

/-- So does what is made of all that is below. -/
theorem flatMap_descendants {f f' : Path × String → List B} (found : tree.find dir = .ok t)
    (kept : ∀ path s sub, tree.find path = .ok sub → f' (path, s) = f (path, s))
    (quiet : ∀ path, tree'.find path = .ok entry → f' (path, name) = []) :
    (tree'.descendants dir).flatMap f' = (tree.descendants dir).flatMap f := by
  obtain ⟨t', found', grown⟩ := gains.find found
  have same : (t.contents dir).flatMap f' = (t.contents dir).flatMap f := by
    refine List.flatMap_congr fun ⟨path, s⟩ listed => ?_
    obtain ⟨sub, there⟩ := exists_of_mem_contents found (proper.find found) listed
    exact kept path s sub there
  rw [descendants, descendants, found, found']
  dsimp only
  rw [← same]
  rcases grown with rfl | gains
  · rfl
  · obtain ⟨front, back, names, listed, listed', leads⟩ :=
      gains.contents bare (proper'.find found') dir
    have here : tree'.find (dir.descend (names ++ [name])) = .ok entry := by
      cases t' with
      | file bytes => cases names <;> cases leads
      | directory entries => exact find_descend found' (proper'.find found') leads (by simp)
    rw [listed, listed', flatMap_insert (quiet _ here)]

variable (kept : ∀ path t, tree.find path = .ok t → made' path = made path)

include kept

/-- What is found comes to the same, in the same order. -/
theorem filterMap_expandFrom (ignores : Ignores tree' name entry made' pieces)
    (found : tree.find dir = .ok t) :
    (expandFrom tree' pieces dir).filterMap made' =
      (expandFrom tree pieces dir).filterMap made := by
  obtain ⟨t', found', grown⟩ := gains.find found
  -- Where the pattern has come to was there before, and the entry is one step from there at most:
  -- a piece that leads on, one that leads nowhere yet, tokens, and directories at any depth.
  induction pieces, dir using expandFrom.induct tree generalizing t t' with
  | case1 dir =>
      rw [expandFrom, expandFrom, List.filterMap_cons, List.filterMap_cons, kept dir t found]
      rfl
  | case2 s pieces dir leads ih =>
      have piece := ignores.cut s List.mem_cons_self
      obtain ⟨next, there⟩ := (leads_iff found piece).mp leads
      obtain ⟨next', there', grown'⟩ := gains.find there
      rw [expandFrom, expandFrom, if_pos leads, if_pos ((leads_iff found' piece).mpr ⟨_, there'⟩)]
      exact ih ignores.tail there next' there' grown'
  | case3 s pieces dir leads =>
      rw [expandFrom, expandFrom, if_neg leads]
      split
      · rename_i leads'
        obtain ⟨rfl, there⟩ :=
          gains.leads_newly (ignores.cut s List.mem_cons_self) found found' leads leads'
        exact ignores.quiet List.suffix_rfl (decide_eq_true rfl) there
      · rfl
  | case4 tokens pieces dir ih =>
      rw [expandFrom, expandFrom, List.filterMap_flatMap, List.filterMap_flatMap]
      refine flatMap_namesIn gains proper proper' found (fun s sub there => ?_)
        fun admits there => ignores.quiet List.suffix_rfl admits there
      obtain ⟨sub', there', grown'⟩ := gains.find there
      exact ih s ignores.tail there sub' there' grown'
  | case5 pieces dir ih =>
      rw [expandFrom, expandFrom]
      exact ih ignores.tail found t' found' grown
  | case6 piece pieces dir other ih =>
      rw [expandFrom, expandFrom, List.filterMap_flatMap, List.filterMap_flatMap]
      · refine flatMap_descendants gains proper proper' bare found (fun path s sub there => ?_)
          fun path there => ?_
        · dsimp only
          split
          · obtain ⟨sub', there', grown'⟩ := gains.find there
            exact ih path ignores.tail.tail there sub' there' grown'
          · rfl
        · dsimp only
          split
          · rename_i admits
            exact ignores.tail.quiet List.suffix_rfl admits there
          · rfl
      · exact other
      · exact other
  | case7 dir => exact absurd rfl ignores.ends

theorem filterMap_expand {pattern : String}
    (ignores : ∀ pieces, (splitRoot (Path.pieces ⟨pattern⟩)).2.mapM Piece.compile = .ok pieces →
      Ignores tree' name entry made' pieces) :
    (expand tree' pattern).map (·.filterMap made') =
      (expand tree pattern).map (·.filterMap made) := by
  have start : ∃ t, tree.find (splitRoot (Path.pieces ⟨pattern⟩)).1 = .ok t := by
    cases gains <;> exact ⟨_, find_splitRoot⟩
  obtain ⟨t, found⟩ := start
  rw [expand_eq_map, expand_eq_map]
  cases compile pattern with
  | error e => rfl
  | ok tokens =>
      cases compiled : (splitRoot (Path.pieces ⟨pattern⟩)).2.mapM Piece.compile with
      | error e => rfl
      | ok pieces =>
          exact congrArg Except.ok (filterMap_expandFrom gains proper proper' bare kept
            (ignores pieces compiled) found)

end Gains

/-! ## Patterns for source files -/

theorem compile_literal {spelling s : String}
    (compiled : Piece.compile spelling = .ok (.literal s)) : s = spelling := by
  rw [Piece.compile] at compiled
  cases tokens : compile spelling with
  | error e =>
      rw [tokens] at compiled
      cases compiled
  | ok found =>
      rw [tokens] at compiled
      change Except.ok (ite _ _ _) = _ at compiled
      split at compiled
      · cases compiled
      · split at compiled <;> cases compiled
        rfl

/-- Each piece comes of its spelling. -/
theorem exists_of_mapM_compile {spellings : List String}
    (compiled : spellings.mapM Piece.compile = .ok pieces) :
    ∀ piece ∈ pieces, ∃ s ∈ spellings, Piece.compile s = .ok piece := by
  induction spellings generalizing pieces with
  | nil =>
      cases compiled
      simp
  | cons s rest ih =>
      rw [List.mapM_cons] at compiled
      cases first : Piece.compile s with
      | error e =>
          rw [first] at compiled
          cases compiled
      | ok piece =>
          cases others : rest.mapM Piece.compile with
          | error e =>
              rw [first, others] at compiled
              cases compiled
          | ok last =>
              rw [first, others] at compiled
              cases compiled
              intro p member
              rcases List.mem_cons.mp member with rfl | later
              · exact ⟨s, List.mem_cons_self, first⟩
              · obtain ⟨s', inside, compiled⟩ := ih others p later
                exact ⟨s', List.mem_cons_of_mem _ inside, compiled⟩

/-- The spelling is that of a piece that may lead to the directory above. -/
def Glob.Piece.spellsUp (spelling : String) : Bool :=
  match Piece.compile spelling with
  | .ok piece => piece.leadsUp
  | .error _ => false

/-- Taken as a pattern, the path may lead back up on its way. -/
def Path.leadsUp (p : Path) : Bool :=
  p.pieces.any Piece.spellsUp

section Root

variable {root : Path}
  (compiled : (splitRoot (Path.pieces ⟨sourcePattern root⟩)).2.mapM Piece.compile = .ok pieces)

include compiled

theorem areCut_of_sourcePattern : AreCut pieces := by
  intro s member
  obtain ⟨spelling, inside, compiled⟩ := exists_of_mapM_compile compiled _ member
  rw [compile_literal compiled]
  exact isPiece_splitRoot spelling inside

theorem getLast?_of_sourcePattern : pieces.getLast? = some (.wildcard sourceTokens) := by
  rw [pieces_sourcePattern, splitRoot_append] at compiled
  exact getLast?_of_mapM_compile compiled

theorem stayBelow_of_sourcePattern (down : root.leadsUp = false) : StayBelow pieces where
  ends := .inr (getLast?_of_sourcePattern compiled)
  cut := areCut_of_sourcePattern compiled
  stays piece member := by
    obtain ⟨s, inside, single⟩ := exists_of_mapM_compile compiled piece member
    have spelled : Piece.spellsUp s = piece.leadsUp := by rw [Piece.spellsUp, single]
    rw [← spelled]
    rw [pieces_sourcePattern, splitRoot_append] at inside
    rcases List.mem_append.mp inside with own | added
    · exact Bool.eq_false_iff.mpr (List.any_eq_false.mp down s (mem_splitRoot own))
    · have below : ∀ s ∈ ["**", "*.rs"], Piece.spellsUp s = false := by decide
      exact below s added

end Root

/-! ## The entry is not taken for a source file -/

/-- Nothing is made of a file. -/
theorem ignores_file (cut : AreCut pieces) (ends : pieces.getLast? = some (.wildcard sourceTokens))
    (quiet : ∀ path, tree'.find path = .ok (file bytes) → made' path = none) :
    Ignores tree' name (file bytes) made' pieces where
  cut := cut
  ends last := by
    rw [ends] at last
    cases last
  quiet {piece rest} inside admits path found := by
    by_cases none : rest = []
    · rw [none, expandFrom, List.filterMap_cons, quiet path found]
      rfl
    · have suffix := (List.suffix_cons piece rest).trans inside
      rw [expandFrom_file none (cut.of_suffix suffix) found]
      rfl

/-- An empty directory is not led to as a source file, nor does anything else come of it. -/
theorem ignores_directory (below : StayBelow pieces) (some : pieces ≠ [])
    (other : name.endsWith ".rs" = false) : Ignores tree' name (directory []) made' pieces where
  cut := below.cut
  ends last := by
    rcases below.ends with none | ends
    · exact some none
    · rw [ends] at last
      cases last
  quiet {piece rest} inside admits path found := by
    have suffix := (List.suffix_cons piece rest).trans inside
    by_cases none : rest = []
    · subst none
      rcases (below.of_suffix inside).ends with none | ends
      · cases none
      · obtain rfl := Option.some.inj ends
        rw [matches_sourceTokens_iff_endsWith.mp admits] at other
        cases other
    · rw [expandFrom_empty none (below.of_suffix suffix) found]
      rfl

theorem stayBelow_sources : StayBelow [.directories, .wildcard sourceTokens] where
  ends := .inr rfl
  stays := by decide
  cut := by simp [AreCut]

theorem exists_find_of_isDirectory (directory : tree.isDirectory dir = true) :
    ∃ entries, tree.find dir = .ok (.directory entries) := by
  rw [FileTree.isDirectory] at directory
  split at directory
  · exact ⟨_, ‹_›⟩
  · cases directory

/-- A root that an empty directory does not change: its pattern does not lead back up, or it has no
wildcards and leads to a directory already. -/
def Path.Stands (root : Path) (tree : FileTree) : Prop :=
  root.leadsUp = false ∨ root.isAbsolute = true ∧ root.IsPlain ∧ tree.isDirectory root = true

variable {root : Path} {excludes : List String}

/-- What is made of the source files, of which some are excluded. -/
theorem map_discover (tree : FileTree) (root : Path) (excludes : List String)
    (made : Path → Option B) : (discover tree root excludes).map (·.filterMap made) =
      (expand tree (sourcePattern root)).map (·.filterMap fun path =>
        if isExcluded excludes path then none else made path) := by
  rw [discover]
  cases expand tree (sourcePattern root) with
  | error e => rfl
  | ok all =>
      refine congrArg Except.ok ?_
      dsimp only
      rw [List.filterMap_filter]
      refine List.filterMap_congr fun path _ => ?_
      cases isExcluded excludes path <;> rfl

section Discover

variable (proper : Proper tree) (named : IsName name)
  (kept : ∀ path t, tree.find path = .ok t → made' path = made path)

include proper named kept

/-- Where nothing is made of a new file, the source files come to the same. -/
theorem map_discover_file (gains : Gains name (file bytes) tree tree')
    (quiet : ∀ path, tree'.find path = .ok (file bytes) → made' path = none) :
    (discover tree' root excludes).map (·.filterMap made') =
      (discover tree root excludes).map (·.filterMap made) := by
  rw [map_discover, map_discover]
  refine filterMap_expand gains proper (gains.proper named (.file bytes) proper) rfl
    (fun path t found => by rw [kept path t found]) fun pieces compiled => ?_
  refine ignores_file (areCut_of_sourcePattern compiled) (getLast?_of_sourcePattern compiled)
    fun path found => ?_
  rw [quiet path found, ite_self]

/-- An empty directory that is not called by the name of a source file changes nothing. -/
theorem map_discover_directory (gains : Gains name (directory []) tree tree')
    (other : name.endsWith ".rs" = false) (stands : root.Stands tree) :
    (discover tree' root excludes).map (·.filterMap made') =
      (discover tree root excludes).map (·.filterMap made) := by
  have proper' := gains.proper named (.directory (by simp) (by simp) (by simp)) proper
  rw [map_discover, map_discover]
  rcases stands with down | ⟨absolute, plain, stands⟩
  · refine filterMap_expand gains proper proper' rfl (fun path t found => by rw [kept path t found])
      fun pieces compiled => ignores_directory (stayBelow_of_sourcePattern compiled down) ?_ other
    rintro rfl
    cases getLast?_of_sourcePattern compiled
  · obtain ⟨entries, found⟩ := exists_find_of_isDirectory stands
    obtain ⟨_, found', grown⟩ := gains.find found
    obtain ⟨entries', rfl⟩ := grown.directory
    rw [expand_sourcePattern absolute found' plain, expand_sourcePattern absolute found plain,
      ← expandFrom_below, ← expandFrom_below]
    exact congrArg Except.ok (filterMap_expandFrom gains proper proper' rfl
      (fun path t found => by rw [kept path t found])
      (ignores_directory stayBelow_sources (by simp) other) (find_walked absolute found))

end Discover

end SourceLint
