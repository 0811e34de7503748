import SourceLint.Proofs.FileTree.Routes

/-! # Proper file trees

In a proper tree the entries of a directory have names of their own that can stand in a path.
There a path below a directory leads to one entry, and each entry is listed once.
-/

namespace SourceLint.FileTree

open SourceLint.Path (IsName)

inductive Proper : FileTree → Prop where
  | file (bytes : ByteArray) : Proper (file bytes)
  | directory {entries : List (String × FileTree)} (distinct : (entries.map Prod.fst).Nodup)
    (names : ∀ e ∈ entries, IsName e.1) (inside : ∀ e ∈ entries, Proper e.2) :
    Proper (directory entries)

variable {tree t last : FileTree} {dir : Path} {names : List String}

theorem Leads.isName (proper : Proper t) (leads : Leads t names last) : ∀ s ∈ names, IsName s := by
  induction leads with
  | here => simp
  | into member rest ih =>
      obtain _ | ⟨_, named, inside⟩ := proper
      intro s listed
      rcases List.mem_cons.mp listed with rfl | later
      · exact named _ member
      · exact ih (inside _ member) s later

/-! ## Looking up -/

theorem lookup_of_mem {entries : List (String × FileTree)} {name : String} {entry : FileTree}
    (distinct : (entries.map Prod.fst).Nodup) (member : (name, entry) ∈ entries) :
    entries.lookup name = some entry := by
  induction entries with
  | nil => cases member
  | cons first rest ih =>
      obtain ⟨other, found⟩ := first
      rw [List.map_cons, List.nodup_cons] at distinct
      rcases List.mem_cons.mp member with now | later
      · cases now
        simp
      · have differ : (name == other) = false := by
          rw [beq_eq_false_iff_ne]
          rintro rfl
          exact distinct.1 (List.mem_map.mpr ⟨_, later, rfl⟩)
        rw [List.lookup_cons, differ]
        exact ih distinct.2 later

theorem step_name {entries : List (String × FileTree)} {above : List FileTree} {name : String}
    (proper : IsName name) :
    step (directory entries, above) name = match entries.lookup name with
      | some entry => .ok (entry, directory entries :: above)
      | none => .error .notFound := by
  have named := proper.ofPiece
  rw [Path.Component.ofPiece] at named
  split at named
  · cases named
  · rename_i plain
    split at named
    · cases named
    · rename_i up
      cases found : entries.lookup name <;> simp only [step, if_neg plain, if_neg up, found]

/-- A route is followed to where it leads. -/
theorem Leads.foldlM_step (proper : Proper t) (leads : Leads t names last) (above : List FileTree) :
    ∃ passed, names.foldlM step (t, above) = .ok (last, passed) := by
  induction leads generalizing above with
  | here => exact ⟨above, rfl⟩
  | @into entries name entry last names member rest ih =>
      obtain _ | ⟨distinct, named, inside⟩ := proper
      rw [List.foldlM_cons, step_name (named _ member), lookup_of_mem distinct member]
      exact ih (inside _ member) _

theorem step_empty {entries : List (String × FileTree)} {above : List FileTree} :
    step (directory entries, above) "" = .ok (directory entries, above) := by
  simp [step]

theorem exists_passed (found : tree.find dir = .ok t) :
    ∃ passed, dir.pieces.foldlM step (tree, []) = .ok (t, passed) := by
  rw [find] at found
  cases way : dir.pieces.foldlM step (tree, []) with
  | error e =>
      rw [way] at found
      cases found
  | ok reached =>
      obtain ⟨here, passed⟩ := reached
      rw [way] at found
      cases found
      exact ⟨passed, rfl⟩

/-- What stands at a path is already reached by the stem of the path. -/
theorem exists_way (found : tree.find dir = .ok t) :
    ∃ above, dir.stem.foldlM step (tree, []) = .ok (t, above) := by
  have whole := exists_passed found
  cases isOpen : dir.endsOpen with
  | false => rwa [Path.pieces_of_not_endsOpen isOpen] at whole
  | true =>
      obtain ⟨above, way⟩ := whole
      rw [Path.pieces_of_endsOpen isOpen, List.foldlM_append] at way
      cases stem : dir.stem.foldlM step (tree, []) with
      | error e =>
          rw [stem] at way
          cases way
      | ok reached =>
          rw [stem] at way
          obtain ⟨_ | entries', above'⟩ := reached
          · cases way
          · change step (directory entries', above') "" >>= _ = _ at way
            rw [step_empty] at way
            cases way
            exact ⟨above, rfl⟩

theorem find_of_way {entries : List (String × FileTree)} {above : List FileTree}
    (way : dir.stem.foldlM step (tree, []) = .ok (directory entries, above)) :
    tree.find dir = .ok (directory entries) := by
  rw [find]
  cases isOpen : dir.endsOpen with
  | false =>
      rw [Path.pieces_of_not_endsOpen isOpen, way]
      rfl
  | true =>
      rw [Path.pieces_of_endsOpen isOpen, List.foldlM_append, way]
      change (step (directory entries, above) "" >>= fun way => .ok way).map Prod.fst = _
      rw [step_empty]
      rfl

theorem find_join {above : List FileTree} {s : String}
    (way : dir.stem.foldlM step (tree, []) = .ok (t, above)) (piece : Path.IsPiece s) :
    tree.find (dir.join ⟨s⟩) = (step (t, above) s).map Prod.fst := by
  rw [find, Path.pieces_join dir piece, List.foldlM_append, way]
  change (step (t, above) s >>= fun way => .ok way).map Prod.fst = _
  cases step (t, above) s <;> rfl

theorem find_descend {entries : List (String × FileTree)}
    (found : tree.find dir = .ok (directory entries)) (proper : Proper (directory entries))
    (leads : Leads (directory entries) names last) (some : names ≠ []) :
    tree.find (dir.descend names) = .ok last := by
  obtain ⟨above, way⟩ := exists_way found
  obtain ⟨passed, rest⟩ := leads.foldlM_step proper above
  rw [find, Path.pieces_descend dir (leads.isName proper) some, List.foldlM_append, way]
  change (names.foldlM step (directory entries, above)).map Prod.fst = _
  rw [rest]
  rfl

/-- All that a way has come through is proper. -/
def IsProperWay (way : FileTree × List FileTree) : Prop :=
  Proper way.1 ∧ ∀ above ∈ way.2, Proper above

theorem IsProperWay.step {way next : FileTree × List FileTree} (proper : IsProperWay way)
    {piece : String} (on : FileTree.step way piece = .ok next) : IsProperWay next := by
  obtain ⟨_ | entries, above⟩ := way
  · cases on
  · obtain ⟨here, passed⟩ := proper
    dsimp only at here passed
    rw [FileTree.step.eq_def] at on
    dsimp only at on
    split at on
    · cases on
      exact ⟨here, passed⟩
    · split at on
      · cases above with
        | nil =>
            cases on
            exact ⟨here, passed⟩
        | cons parent above =>
            cases on
            exact ⟨passed parent (by simp), fun t inside => passed t (by simp [inside])⟩
      · split at on
        · rename_i entry looked
          cases on
          obtain ⟨front, back, split, _⟩ := List.lookup_eq_some_iff.mp looked
          refine ⟨?_, fun t member => ?_⟩
          · obtain _ | ⟨_, _, inside⟩ := here
            exact inside (piece, entry) (by simp [split])
          · rcases List.mem_cons.mp member with rfl | later
            · exact here
            · exact passed t later
        · cases on

theorem IsProperWay.foldlM_step {pieces : List String} {way last : FileTree × List FileTree}
    (proper : IsProperWay way) (found : pieces.foldlM FileTree.step way = .ok last) :
    IsProperWay last := by
  induction pieces generalizing way with
  | nil =>
      cases found
      exact proper
  | cons piece rest ih =>
      rw [List.foldlM_cons] at found
      cases on : FileTree.step way piece with
      | error e =>
          rw [on] at found
          cases found
      | ok next =>
          rw [on] at found
          exact ih (proper.step on) found

theorem Proper.find (proper : Proper tree) (found : tree.find dir = .ok t) : Proper t := by
  obtain ⟨passed, way⟩ := exists_passed found
  have start : IsProperWay (tree, []) := ⟨proper, by simp⟩
  exact (start.foldlM_step way).1

theorem read_of_find {path : Path} (found : tree.find path = .ok t) : tree.read path = t.text := by
  rw [FileTree.read, found]
  rfl

theorem text_eq_ok_iff {content : String} :
    t.text = .ok content ↔ ∃ bytes, t = file bytes ∧ String.fromUTF8? bytes = some content := by
  cases t with
  | file bytes =>
      rw [text]
      cases decoded : String.fromUTF8? bytes <;> simp [decoded]
  | directory entries =>
      constructor
      · intro read
        cases read
      · rintro ⟨bytes, same, _⟩
        cases same

/-! ## Listing -/

/-- Routes of different names lead to different paths. -/
theorem descend_injective {names names' : List String} (proper : ∀ s ∈ names, IsName s)
    (proper' : ∀ s ∈ names', IsName s) (some : names ≠ []) (some' : names' ≠ [])
    (same : dir.descend names = dir.descend names') : names = names' := by
  have pieces := congrArg Path.pieces same
  rw [Path.pieces_descend dir proper some, Path.pieces_descend dir proper' some'] at pieces
  exact List.append_cancel_left pieces

/-- What is listed for entries has the name of one of them first in its route. -/
theorem exists_route {entries : List (String × FileTree)} (names : ∀ e ∈ entries, IsName e.1)
    (inside : ∀ e ∈ entries, Proper e.2) {path : Path}
    (listed : path ∈ ((contentsOfEach dir entries).flatMap Prod.snd).map Prod.fst) :
    ∃ first ∈ entries.map Prod.fst, ∃ rest, (∀ s ∈ first :: rest, IsName s) ∧
      path = dir.descend (first :: rest) := by
  obtain ⟨⟨_, name⟩, found, rfl⟩ := List.mem_map.mp listed
  obtain ⟨first, entry, member, here | ⟨rest, last, leads, route⟩⟩ :=
    (mem_contentsOfEach dir _ name entries).mp (List.mem_flatMap.mp found)
  · refine ⟨_, List.mem_map_of_mem member, [], ?_, (Prod.mk.inj here).1⟩
    simpa using names _ member
  · refine ⟨_, List.mem_map_of_mem member, _, ?_, route⟩
    intro s among
    rcases List.mem_cons.mp among with rfl | later
    · exact names _ member
    · exact leads.isName (inside _ member) s later

mutual

/-- No path is listed twice. -/
theorem nodup_contents (dir : Path) : (t : FileTree) → Proper t →
    ((t.contents dir).map Prod.fst).Nodup
  | .file bytes, _ => by simp [contents]
  | .directory entries, proper => by
      obtain _ | ⟨distinct, names, inside⟩ := proper
      have sorted : (contents dir (directory entries)).Perm
          ((contentsOfEach dir entries).flatMap Prod.snd) := by
        rw [contents]
        exact (List.mergeSort_perm _ _).flatMap_right Prod.snd
      exact (sorted.map Prod.fst).nodup_iff.mpr
        (nodup_contentsOfEach dir entries distinct names inside)

theorem nodup_contentsOfEach (dir : Path) : (entries : List (String × FileTree)) →
    (entries.map Prod.fst).Nodup → (∀ e ∈ entries, IsName e.1) → (∀ e ∈ entries, Proper e.2) →
    (((contentsOfEach dir entries).flatMap Prod.snd).map Prod.fst).Nodup
  | [], _, _, _ => by simp [contentsOfEach]
  | (name, entry) :: rest, distinct, names, inside => by
      have below := nodup_contents (dir.child name) entry (inside _ List.mem_cons_self)
      rw [List.map_cons, List.nodup_cons] at distinct
      have others := nodup_contentsOfEach dir rest distinct.2
        (fun e member => names e (List.mem_cons_of_mem _ member))
        fun e member => inside e (List.mem_cons_of_mem _ member)
      have split : ((contentsOfEach dir ((name, entry) :: rest)).flatMap Prod.snd).map Prod.fst =
          ((contentsOfEach dir [(name, entry)]).flatMap Prod.snd).map Prod.fst ++
            ((contentsOfEach dir rest).flatMap Prod.snd).map Prod.fst := by
        simp [contentsOfEach]
      rw [split, List.nodup_append]
      refine ⟨?_, others, ?_⟩
      · simp only [contentsOfEach, List.flatMap_cons, List.flatMap_nil, List.append_nil,
          List.map_cons, List.nodup_cons]
        refine ⟨fun again => ?_, below⟩
        obtain ⟨⟨_, last⟩, listed, same⟩ := List.mem_map.mp again
        obtain ⟨more, _, leads, rfl⟩ := (mem_contents _ _ last entry).mp listed
        have proper := leads.isName (inside _ List.mem_cons_self)
        have named := names _ List.mem_cons_self
        have again : name :: (more ++ [last]) = [name] := descend_injective
          (by simpa [named] using proper) (by simpa using named) (by simp) (by simp) same
        simp at again
      · intro path first path' later same
        obtain ⟨head, among, more, proper, rfl⟩ := exists_route
          (fun e member => names e (by simp_all)) (fun e member => inside e (by simp_all)) first
        obtain ⟨head', among', more', proper', rfl⟩ := exists_route
          (fun e member => names e (List.mem_cons_of_mem _ member))
          (fun e member => inside e (List.mem_cons_of_mem _ member)) later
        have routes := descend_injective proper proper' (by simp) (by simp) same
        rw [List.map_singleton, List.mem_singleton] at among
        cases routes
        exact distinct.1 (among ▸ among')

end

/-! ## Listing from another path -/

/-- What lies below one path is moved to what lies below the other. -/
def Carries (move : Path → Path) (dir other : Path) : Prop :=
  ∀ names, (∀ s ∈ names, IsName s) → names ≠ [] → move (dir.descend names) = other.descend names

theorem Carries.child {move : Path → Path} {dir other : Path} (carries : Carries move dir other)
    {name : String} (proper : IsName name) : Carries move (dir.child name) (other.child name) := by
  intro names named _
  refine carries (name :: names) ?_ (by simp)
  intro s member
  rcases List.mem_cons.mp member with rfl | later
  · exact proper
  · exact named s later

theorem byName_map {A B : Type} (f : A → B) (named : List (String × A)) :
    byName (named.map (Prod.map id f)) = (byName named).map (Prod.map id f) := by
  refine (List.map_mergeSort ?_).symm
  exact fun _ _ _ _ => rfl

mutual

/-- The same is listed below both, in the same order. -/
theorem contents_carried {move : Path → Path} {dir other : Path} (carries : Carries move dir other) :
    (t : FileTree) → Proper t → t.contents other = (t.contents dir).map (Prod.map move id)
  | .file bytes, _ => by
      rw [contents, contents]
      rfl
  | .directory entries, proper => by
      obtain _ | ⟨_, names, inside⟩ := proper
      rw [contents, contents, contentsOfEach_carried carries entries names inside, byName_map,
        List.flatMap_map, List.map_flatMap]
      rfl

theorem contentsOfEach_carried {move : Path → Path} {dir other : Path}
    (carries : Carries move dir other) : (entries : List (String × FileTree)) →
    (∀ e ∈ entries, IsName e.1) → (∀ e ∈ entries, Proper e.2) →
    contentsOfEach other entries =
      (contentsOfEach dir entries).map (Prod.map id (List.map (Prod.map move id)))
  | [], _, _ => by
      rw [contentsOfEach, contentsOfEach]
      rfl
  | (name, entry) :: rest, names, inside => by
      have named := names _ List.mem_cons_self
      have here : other.child name = move (dir.child name) :=
        (carries [name] (by simpa using named) (by simp)).symm
      have below := contents_carried (carries.child named) entry (inside _ List.mem_cons_self)
      have others := contentsOfEach_carried carries rest
        (fun e member => names e (List.mem_cons_of_mem _ member))
        fun e member => inside e (List.mem_cons_of_mem _ member)
      rw [contentsOfEach, contentsOfEach, below, others, here]
      rfl

end

end SourceLint.FileTree
