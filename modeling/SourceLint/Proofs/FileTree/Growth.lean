import Mathlib.Data.List.Nodup
import Mathlib.Data.String.Basic
import SourceLint.Proofs.FileTree.Proper

/-! # Trees that gain an entry

Some directory of a tree gains an entry with nothing in it, a file or an empty directory. What was
found before is still found by the same paths, and may have gained the entry inside. A listing gains
one line.
-/

namespace SourceLint.FileTree

open SourceLint.Path (IsName)

/-- Some directory of the tree, or the tree itself, gains an entry of a name that is new to it. -/
inductive Gains (name : String) (entry : FileTree) : FileTree → FileTree → Prop where
  | here {before after : List (String × FileTree)} (fresh : name ∉ (before ++ after).map Prod.fst) :
    Gains name entry (directory (before ++ after)) (directory (before ++ (name, entry) :: after))
  | inside {before after : List (String × FileTree)} {other : String} {sub sub' : FileTree}
    (gains : Gains name entry sub sub') :
    Gains name entry (directory (before ++ (other, sub) :: after))
      (directory (before ++ (other, sub') :: after))

/-- The tree is as it was, or has gained the entry. -/
def Grown (name : String) (entry t t' : FileTree) : Prop :=
  t' = t ∨ Gains name entry t t'

variable {name : String} {entry t t' tree tree' : FileTree} {path : Path}

/-- Nothing stands where the entry has come to stand, so nothing else makes way for it. -/
theorem Gains.proper (gains : Gains name entry t t') (named : IsName name) (sound : Proper entry)
    (proper : Proper t) : Proper t' := by
  induction gains with
  | @here before after fresh =>
      obtain _ | ⟨distinct, names, inside⟩ := proper
      have perm : (before ++ (name, entry) :: after).Perm ((name, entry) :: (before ++ after)) :=
        List.perm_middle
      refine .directory ?_ (fun e member => ?_) fun e member => ?_
      · rw [(perm.map Prod.fst).nodup_iff]
        exact List.nodup_cons.mpr ⟨fresh, distinct⟩
      · rcases List.mem_cons.mp (perm.mem_iff.mp member) with rfl | member
        · exact named
        · exact names e member
      · rcases List.mem_cons.mp (perm.mem_iff.mp member) with rfl | member
        · exact sound
        · exact inside e member
  | @inside before after other sub sub' _ ih =>
      obtain _ | ⟨distinct, names, inside⟩ := proper
      simp only [List.mem_append, List.mem_cons] at names inside
      refine .directory (by simpa using distinct) (fun e member => ?_) fun e member => ?_
      · simp only [List.mem_append, List.mem_cons] at member
        rcases member with front | rfl | back
        · exact names e (.inl front)
        · exact names (other, sub) (.inr (.inl rfl))
        · exact names e (.inr (.inr back))
      · simp only [List.mem_append, List.mem_cons] at member
        rcases member with front | rfl | back
        · exact inside e (.inl front)
        · exact ih (inside (other, sub) (.inr (.inl rfl)))
        · exact inside e (.inr (.inr back))

/-- A file has not grown. -/
theorem Grown.file {bytes : ByteArray} (grown : Grown name entry (file bytes) t') :
    t' = file bytes := by
  rcases grown with same | gains
  · exact same
  · cases gains

theorem Grown.directory {entries : List (String × FileTree)}
    (grown : Grown name entry (directory entries) t') : ∃ entries', t' = .directory entries' := by
  rcases grown with rfl | gains
  · exact ⟨_, rfl⟩
  · cases gains <;> exact ⟨_, rfl⟩

theorem Grown.text (grown : Grown name entry t t') : t'.text = t.text := by
  cases t with
  | file bytes => rw [grown.file]
  | directory entries =>
      obtain ⟨entries', rfl⟩ := grown.directory
      rfl

/-! ## Looking up -/

/-- What is found by a piece of a path before and after. -/
inductive FoundAlike (name : String) (entry : FileTree) (piece : String) :
    Option FileTree → Option FileTree → Prop where
  | both {sub sub' : FileTree} (grown : Grown name entry sub sub') :
    FoundAlike name entry piece (some sub) (some sub')
  | neither : FoundAlike name entry piece none none
  | gained (called : piece = name) : FoundAlike name entry piece none (some entry)

theorem FoundAlike.refl {piece : String} (found : Option FileTree) :
    FoundAlike name entry piece found found := by
  cases found with
  | none => exact .neither
  | some sub => exact .both (.inl rfl)

theorem lookup_eq_none {entries : List (String × FileTree)} (fresh : name ∉ entries.map Prod.fst) :
    entries.lookup name = none := by
  rw [List.lookup_eq_none_iff]
  intro e member
  rw [bne_iff_ne]
  rintro rfl
  exact fresh (List.mem_map_of_mem member)

theorem Grown.lookup {entries entries' : List (String × FileTree)}
    (grown : Grown name entry (.directory entries) (.directory entries')) (piece : String) :
    FoundAlike name entry piece (entries.lookup piece) (entries'.lookup piece) := by
  rcases grown with same | gains
  · cases same
    exact .refl _
  · cases gains with
    | @here before after fresh =>
        rw [List.lookup_append, List.lookup_append, List.lookup_cons]
        cases here : piece == name with
        | true =>
            obtain rfl := eq_of_beq here
            rw [List.map_append, List.mem_append, not_or] at fresh
            rw [lookup_eq_none fresh.1, lookup_eq_none fresh.2]
            exact .gained rfl
        | false => exact .refl _
    | @inside before after other sub sub' gains =>
        rw [List.lookup_append, List.lookup_append, List.lookup_cons, List.lookup_cons]
        cases before.lookup piece with
        | some found => exact .refl _
        | none =>
            cases piece == other with
            | true => exact .both (.inr gains)
            | false => exact .refl _

/-- Ways that have come through the same directories, before and after. -/
structure Along (name : String) (entry : FileTree) (way way' : FileTree × List FileTree) :
    Prop where
  here : Grown name entry way.1 way'.1
  above : List.Forall₂ (Grown name entry) way.2 way'.2

/-- What a piece leads on to before and after. -/
inductive LedAlike (name : String) (entry : FileTree) (piece : String) :
    Except ReadError (FileTree × List FileTree) → Except ReadError (FileTree × List FileTree) →
      Prop where
  | both {way way' : FileTree × List FileTree} (along : Along name entry way way') :
    LedAlike name entry piece (.ok way) (.ok way')
  | neither {e e' : ReadError} : LedAlike name entry piece (.error e) (.error e')
  | gained {e : ReadError} {above : List FileTree} (called : piece = name) :
    LedAlike name entry piece (.error e) (.ok (entry, above))

/-- One piece of a path leads on alike. -/
theorem Along.step {way way' : FileTree × List FileTree} (along : Along name entry way way')
    (piece : String) : LedAlike name entry piece (step way piece) (step way' piece) := by
  obtain ⟨here, above⟩ := way
  obtain ⟨here', above'⟩ := way'
  obtain ⟨grown, passed⟩ := along
  dsimp only at grown passed
  cases here with
  | file bytes =>
      rw [grown.file]
      exact .neither
  | directory entries =>
      obtain ⟨entries', rfl⟩ := grown.directory
      rw [FileTree.step.eq_def, FileTree.step.eq_def]
      dsimp only
      by_cases stays : piece = "" ∨ piece = "."
      · rw [if_pos stays, if_pos stays]
        exact .both ⟨grown, passed⟩
      · rw [if_neg stays, if_neg stays]
        by_cases up : piece = ".."
        · rw [if_pos up, if_pos up]
          cases passed with
          | nil => exact .both ⟨grown, .nil⟩
          | cons parent above => exact .both ⟨parent, above⟩
        · rw [if_neg up, if_neg up]
          have found := grown.lookup piece
          generalize entries.lookup piece = sub, entries'.lookup piece = sub' at found
          cases found with
          | both sub => exact .both ⟨sub, .cons grown passed⟩
          | neither => exact .neither
          | gained called => exact .gained called

/-- What a path led to before, it leads to after. -/
theorem Along.foldlM_step {way way' last : FileTree × List FileTree} {pieces : List String}
    (along : Along name entry way way') (found : pieces.foldlM FileTree.step way = .ok last) :
    ∃ last', pieces.foldlM FileTree.step way' = .ok last' ∧ Along name entry last last' := by
  induction pieces generalizing way way' with
  | nil =>
      cases found
      exact ⟨way', rfl, along⟩
  | cons piece rest ih =>
      rw [List.foldlM_cons] at found ⊢
      have next := along.step piece
      generalize FileTree.step way piece = on, FileTree.step way' piece = on' at next found ⊢
      cases next with
      | both along => exact ih along found
      | neither => cases found
      | gained => cases found

section Find

variable (gains : Gains name entry tree tree')

include gains

theorem Gains.find (found : tree.find path = .ok t) :
    ∃ t', tree'.find path = .ok t' ∧ Grown name entry t t' := by
  obtain ⟨passed, way⟩ := exists_passed found
  have start : Along name entry (tree, []) (tree', []) := ⟨.inr gains, .nil⟩
  obtain ⟨⟨t', above⟩, way', along⟩ := start.foldlM_step way
  refine ⟨t', ?_, along.here⟩
  rw [FileTree.find, way']
  rfl

theorem Gains.read (found : tree.find path = .ok t) : tree'.read path = tree.read path := by
  obtain ⟨t', found', grown⟩ := gains.find found
  rw [read_of_find found, read_of_find found', grown.text]

/-- Only its own name leads to the entry from where there was something before. -/
theorem Gains.find_join (found : tree.find path = .ok t) {piece : String}
    (single : Path.IsPiece piece) : FoundAlike name entry piece
      (tree.find (path.join ⟨piece⟩)).toOption (tree'.find (path.join ⟨piece⟩)).toOption := by
  obtain ⟨above, way⟩ := exists_way found
  have start : Along name entry (tree, []) (tree', []) := ⟨.inr gains, .nil⟩
  obtain ⟨⟨t', above'⟩, way', along⟩ := start.foldlM_step way
  rw [FileTree.find_join way single, FileTree.find_join way' single]
  have next := along.step piece
  generalize step (t, above) piece = on, step (t', above') piece = on' at next
  cases next with
  | both along => exact .both along.here
  | neither => exact .neither
  | gained called => exact .gained called

end Find

/-! ## Listing -/

section ByName

variable {A : Type}

theorem pairwise_byName (named : List (String × A)) : (byName named).Pairwise (·.1 ≤ ·.1) := by
  have sorted : (byName named).Pairwise fun a b => decide (a.1 ≤ b.1) :=
    List.pairwise_mergeSort
      (fun a b c first second => decide_eq_true
        ((of_decide_eq_true first).trans (of_decide_eq_true second)))
      (fun a b => by simpa using le_total a.1 b.1) named
  exact sorted.imp of_decide_eq_true

/-- There is one order of things with different names. -/
theorem eq_byName {named ordered : List (String × A)} (distinct : (named.map Prod.fst).Nodup)
    (perm : ordered.Perm named) (sorted : ordered.Pairwise (·.1 ≤ ·.1)) :
    ordered = byName named := by
  have sorts : (byName named).Perm named := List.mergeSort_perm _ _
  refine List.Perm.eq_of_pairwise (fun a b here there below above => ?_) sorted
    (pairwise_byName named) (perm.trans sorts.symm)
  exact List.inj_on_of_nodup_map distinct (perm.mem_iff.mp here) (sorts.mem_iff.mp there)
    (le_antisymm below above)

/-- The names up to one of them, and the names behind it. -/
def upTo (name : String) (e : String × A) : Bool :=
  e.1 ≤ name

theorem byName_split (name : String) {named : List (String × A)}
    (distinct : (named.map Prod.fst).Nodup) : byName named =
      (byName named).filter (upTo name) ++ (byName named).filter (!upTo name ·) := by
  have sorts : (byName named).Perm named := List.mergeSort_perm _ _
  refine (eq_byName distinct ((List.filter_append_perm _ _).trans sorts) ?_).symm
  have sorted := pairwise_byName named
  refine List.pairwise_append.mpr ⟨sorted.filter _, sorted.filter _, fun a first b second => ?_⟩
  have below := of_decide_eq_true (List.mem_filter.mp first).2
  have above : ¬ b.1 ≤ name := by simpa [upTo] using (List.mem_filter.mp second).2
  exact below.trans (not_le.mp above).le

theorem nodup_insert_iff {before after : List (String × A)} {e : String × A} :
    ((before ++ e :: after).map Prod.fst).Nodup ↔
      e.1 ∉ (before ++ after).map Prod.fst ∧ ((before ++ after).map Prod.fst).Nodup := by
  rw [(List.perm_middle.map Prod.fst).nodup_iff, List.map_cons, List.nodup_cons]

/-- One more thing comes in between those that were there, whatever goes by its name. -/
theorem exists_byName_insert {before after : List (String × A)} {name : String}
    (fresh : name ∉ (before ++ after).map Prod.fst)
    (distinct : ((before ++ after).map Prod.fst).Nodup) : ∃ front back,
      byName (before ++ after) = front ++ back ∧
      ∀ a, byName (before ++ (name, a) :: after) = front ++ (name, a) :: back := by
  have sorts : (byName (before ++ after)).Perm (before ++ after) := List.mergeSort_perm _ _
  have split := byName_split name distinct
  refine ⟨_, _, split, fun a => (eq_byName (nodup_insert_iff.mpr ⟨fresh, distinct⟩) ?_ ?_).symm⟩
  · refine List.perm_middle.trans (.trans (.cons _ ?_) List.perm_middle.symm)
    rw [← split]
    exact sorts
  · have sorted := pairwise_byName (before ++ after)
    rw [split] at sorted
    obtain ⟨first, second, across⟩ := List.pairwise_append.mp sorted
    refine List.pairwise_append.mpr ⟨first, List.pairwise_cons.mpr ⟨fun b later => ?_, second⟩,
      fun b early c later => ?_⟩
    · have above : ¬ b.1 ≤ name := by simpa [upTo] using (List.mem_filter.mp later).2
      exact (not_le.mp above).le
    · rcases List.mem_cons.mp later with rfl | later
      · exact of_decide_eq_true (List.mem_filter.mp early).2
      · exact across b early c later

theorem map_fst_byName (named : List (String × A)) :
    (byName named).map Prod.fst = (named.map Prod.fst).mergeSort fun a b => a ≤ b :=
  List.map_mergeSort fun _ _ _ _ => rfl

end ByName

/-- Where a directory is listed, its names are as they were, or the one of the entry comes in. -/
theorem Grown.names {entries entries' : List (String × FileTree)}
    (grown : Grown name entry (.directory entries) (.directory entries'))
    (distinct : (entries'.map Prod.fst).Nodup) :
    (byName entries').map Prod.fst = (byName entries).map Prod.fst ∨
      ∃ front back, (byName entries).map Prod.fst = front ++ back ∧
        (byName entries').map Prod.fst = front ++ name :: back ∧ (name, entry) ∈ entries' := by
  rcases grown with same | gains
  · cases same
    exact .inl rfl
  · cases gains with
    | @here before after fresh =>
        obtain ⟨front, back, listed, listed'⟩ :=
          exists_byName_insert fresh (nodup_insert_iff.mp distinct).2
        refine .inr ⟨front.map Prod.fst, back.map Prod.fst, ?_, ?_, by simp⟩
        · rw [listed, List.map_append]
        · rw [listed', List.map_append, List.map_cons]
    | @inside before after other sub sub' _ =>
        refine .inl ?_
        rw [map_fst_byName, map_fst_byName]
        simp

/-- What is listed for an entry of `dir`. -/
def line (dir : Path) (e : String × FileTree) : List (Path × String) :=
  (dir.child e.1, e.1) :: e.2.contents (dir.child e.1)

theorem contentsOfEach_eq (dir : Path) (entries : List (String × FileTree)) :
    contentsOfEach dir entries = entries.map fun e => (e.1, line dir e) := by
  induction entries with
  | nil => rfl
  | cons e rest ih => rw [contentsOfEach, ih, List.map_cons, line]

theorem contents_directory (dir : Path) (entries : List (String × FileTree)) :
    (directory entries).contents dir = (byName entries).flatMap (line dir) := by
  have sorted : byName (entries.map fun e => (e.1, line dir e)) =
      (byName entries).map fun e => (e.1, line dir e) := by
    refine (List.map_mergeSort ?_).symm
    exact fun _ _ _ _ => rfl
  rw [contents, contentsOfEach_eq, sorted, List.flatMap_map]

/-- Where the entry has nothing in it, one line is new to the listing. -/
theorem Gains.contents (gains : Gains name entry t t') (bare : entry.entries = [])
    (proper : Proper t') (dir : Path) : ∃ front back names,
      t.contents dir = front ++ back ∧
      t'.contents dir = front ++ (dir.descend (names ++ [name]), name) :: back ∧
      Leads t' (names ++ [name]) entry := by
  induction gains generalizing dir with
  | @here before after fresh =>
      obtain _ | ⟨distinct, _, _⟩ := proper
      have alone : line dir (name, entry) = [(dir.child name, name)] := by
        have nothing : entry.contents (dir.child name) = [] := by
          cases entry with
          | file bytes => rfl
          | directory entries =>
              cases bare
              simp [contents_directory, byName]
        rw [line, nothing]
      obtain ⟨front, back, listed, listed'⟩ :=
        exists_byName_insert fresh (nodup_insert_iff.mp distinct).2
      refine ⟨front.flatMap (line dir), back.flatMap (line dir), [], ?_, ?_,
        .into (by simp) (.here entry)⟩
      · rw [contents_directory, listed, List.flatMap_append]
      · rw [contents_directory, listed', List.flatMap_append, List.flatMap_cons, alone]
        rfl
  | @inside before after other sub sub' gains ih =>
      obtain _ | ⟨distinct, _, inside⟩ := proper
      obtain ⟨above, below, names, sublisted, sublisted', leads⟩ :=
        ih (inside (other, sub') (by simp)) (dir.child other)
      obtain ⟨fresh, distinct⟩ := nodup_insert_iff.mp distinct
      obtain ⟨front, back, _, listed⟩ := exists_byName_insert fresh distinct
      refine ⟨front.flatMap (line dir) ++ (dir.child other, other) :: above,
        below ++ back.flatMap (line dir), other :: names, ?_, ?_, .into (by simp) leads⟩
      · rw [contents_directory, listed, List.flatMap_append, List.flatMap_cons, line, sublisted]
        simp only [List.append_assoc, List.cons_append]
      · rw [contents_directory, listed, List.flatMap_append, List.flatMap_cons, line, sublisted']
        simp only [List.append_assoc, List.cons_append]
        rfl

end SourceLint.FileTree
