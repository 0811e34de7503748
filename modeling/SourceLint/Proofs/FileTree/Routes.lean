import SourceLint.FileTree
import SourceLint.Proofs.Path.Pieces

/-! # Routes through a tree

The names of entries lead down from a directory. All that is below a directory is listed with
the path that its route spells, whatever the names are.
-/

namespace SourceLint

namespace FileTree

/-- The names lead from a tree to an entry below it, or to the tree itself. -/
inductive Leads : FileTree → List String → FileTree → Prop where
  | here (t : FileTree) : Leads t [] t
  | into {entries : List (String × FileTree)} {name : String} {entry last : FileTree}
    {names : List String} (member : (name, entry) ∈ entries) (rest : Leads entry names last) :
    Leads (directory entries) (name :: names) last

theorem leads_cons_iff {t last : FileTree} {name : String} {names : List String} :
    Leads t (name :: names) last ↔ ∃ entry, (name, entry) ∈ t.entries ∧ Leads entry names last := by
  constructor
  · rintro (_ | ⟨member, rest⟩)
    exact ⟨_, member, rest⟩
  · rintro ⟨entry, member, rest⟩
    cases t with
    | file bytes => cases member
    | directory entries => exact .into member rest

theorem mem_byName {A : Type} {named : List (String × A)} {a : String × A} :
    a ∈ byName named ↔ a ∈ named :=
  List.mem_mergeSort

/-- The path is that of an entry below the directory at `dir`, and the name its own. -/
def IsBelow (dir : Path) (t : FileTree) (path : Path) (name : String) : Prop :=
  ∃ names last, Leads t (names ++ [name]) last ∧ path = dir.descend (names ++ [name])

theorem isBelow_iff {dir : Path} {t : FileTree} {path : Path} {name : String} :
    IsBelow dir t path name ↔ ∃ first entry, (first, entry) ∈ t.entries ∧
      ((path, name) = (dir.child first, first) ∨ IsBelow (dir.child first) entry path name) := by
  constructor
  · rintro ⟨names, last, leads, rfl⟩
    cases names with
    | nil =>
        obtain ⟨entry, member, _⟩ := leads_cons_iff.mp leads
        exact ⟨name, entry, member, .inl rfl⟩
    | cons first names =>
        obtain ⟨entry, member, rest⟩ := leads_cons_iff.mp leads
        exact ⟨first, entry, member, .inr ⟨names, last, rest, rfl⟩⟩
  · rintro ⟨first, entry, member, here | ⟨names, last, rest, rfl⟩⟩
    · cases here
      exact ⟨[], entry, leads_cons_iff.mpr ⟨entry, member, .here entry⟩, rfl⟩
    · exact ⟨first :: names, last, leads_cons_iff.mpr ⟨entry, member, rest⟩, rfl⟩

mutual

theorem mem_contents (dir : Path) (path : Path) (name : String) : (t : FileTree) →
    ((path, name) ∈ t.contents dir ↔ IsBelow dir t path name)
  | .file bytes => by
      rw [contents, isBelow_iff]
      simp [entries]
  | .directory entries => by
      rw [contents, List.mem_flatMap, isBelow_iff]
      simp only [mem_byName]
      exact mem_contentsOfEach dir path name entries

theorem mem_contentsOfEach (dir : Path) (path : Path) (name : String) :
    (entries : List (String × FileTree)) →
      ((∃ listed ∈ contentsOfEach dir entries, (path, name) ∈ listed.2) ↔
        ∃ first entry, (first, entry) ∈ entries ∧
          ((path, name) = (dir.child first, first) ∨ IsBelow (dir.child first) entry path name))
  | [] => by simp [contentsOfEach]
  | (first, entry) :: rest => by
      have later := mem_contentsOfEach dir path name rest
      have inside := mem_contents (dir.child first) path name entry
      have listed {l : List (Path × String)} {ls : List (String × List (Path × String))} :
          (∃ listed ∈ (first, l) :: ls, (path, name) ∈ listed.2) ↔
            (path, name) ∈ l ∨ ∃ listed ∈ ls, (path, name) ∈ listed.2 := by
        simp
      rw [contentsOfEach, listed, List.mem_cons, inside, later]
      constructor
      · rintro (now | ⟨other, entry, member, there⟩)
        · exact ⟨first, entry, List.mem_cons_self, now⟩
        · exact ⟨other, entry, List.mem_cons_of_mem _ member, there⟩
      · rintro ⟨other, found, member, there⟩
        rcases List.mem_cons.mp member with now | after
        · cases now
          exact .inl there
        · exact .inr ⟨other, found, after, there⟩

end

/-- What is listed below a path has its name for the end of its own path. -/
theorem exists_child_of_mem_descendants {tree : FileTree} {dir path : Path} {name : String}
    (listed : (path, name) ∈ tree.descendants dir) : ∃ above : Path, path = above.child name := by
  rw [descendants] at listed
  split at listed
  · obtain ⟨names, last, leads, rfl⟩ := (mem_contents dir path name _).mp listed
    exact ⟨dir.descend names, Path.descend_append dir names [name]⟩
  · cases listed

end FileTree

end SourceLint
