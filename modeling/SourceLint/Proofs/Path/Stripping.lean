import SourceLint.Proofs.Path.Spelling
import SourceLint.SourceFile

/-! # Files seen from a root

Joining adds the components of the one path to those of the other, and stripping takes the first
ones away again, in whatever spelling they come. What is known of a file by its relative path does
not depend on where the root stands.
-/

namespace SourceLint

namespace Path

/-! ## Joining -/

theorem components_of_stem_nil {p : Path} (stem : p.stem = []) : p.components = [] := by
  cases isOpen : p.endsOpen with
  | false => exact absurd ((pieces_of_not_endsOpen isOpen).trans stem) p.pieces_ne_nil
  | true =>
      rw [components, pieces_of_endsOpen isOpen, stem]
      rfl

theorem components_of_stem_cons {p : Path} {first : String} {rest : List String}
    (stem : p.stem = first :: rest) :
    p.components = (leading first).toList ++ rest.filterMap Component.ofPiece := by
  cases isOpen : p.endsOpen with
  | false =>
      have pieces := (pieces_of_not_endsOpen isOpen).trans stem
      have some : p.text ≠ "" := fun empty => by simp [endsOpen, empty] at isOpen
      rw [components, pieces, componentsOfPieces_cons (counts_of_pieces some pieces)]
  | true =>
      rw [components, pieces_of_endsOpen isOpen, stem, List.cons_append,
        componentsOfPieces_cons (.inr (by simp)), List.filterMap_append]
      simp [Component.ofPiece]

/-- The path is relative, leads somewhere and is made of names alone. -/
structure OfNamesOnly (p : Path) : Prop where
  normal : ∀ c ∈ p.components, ∃ name, c = .normal name
  nonempty : p.components ≠ []

section

variable {p : Path} (names : p.OfNamesOnly)

include names

theorem OfNamesOnly.isAbsolute : p.isAbsolute = false := by
  rw [Bool.eq_false_iff]
  intro absolute
  obtain ⟨_, root⟩ := names.normal .root (by simp [components_of_isAbsolute absolute])
  cases root

/-- The first piece of such a path means what it would mean further inside. -/
theorem OfNamesOnly.components_eq : p.components = p.pieces.filterMap Component.ofPiece := by
  obtain ⟨first, rest, pieces⟩ := List.exists_cons_of_ne_nil p.pieces_ne_nil
  have some : p.text ≠ "" := fun empty => by
    obtain ⟨_⟩ := p
    subst empty
    exact names.nonempty rfl
  obtain ⟨c, component, _⟩ := exists_leading first
  have spelled : p.components = c :: rest.filterMap Component.ofPiece := by
    rw [components, pieces, componentsOfPieces_cons (counts_of_pieces some pieces), component]
    rfl
  obtain ⟨name, rfl⟩ := names.normal c (by simp [spelled])
  have inside : Component.ofPiece first = .some (.normal name) := by
    rw [leading] at component
    split at component
    · cases component
    · split at component
      · cases component
      · exact component
  rw [spelled, pieces, List.filterMap_cons_some inside]

/-- Joined to a root, a path of names adds these to the components, however both are spelled. -/
theorem components_join (root : Path) :
    (root.join p).components = root.components ++ p.components := by
  rw [components, pieces_join_of_relative root names.isAbsolute]
  cases stem : root.stem with
  | nil =>
      rw [components_of_stem_nil stem]
      rfl
  | cons first rest =>
      have more : rest ++ p.pieces ≠ [] := by simp [p.pieces_ne_nil]
      rw [List.cons_append, componentsOfPieces_cons (.inr more), List.filterMap_append,
        ← names.components_eq, components_of_stem_cons stem, List.append_assoc]

end

/-! ## Dropping components -/

theorem filterMap_trimPieces (ps : List String) :
    (trimPieces ps).filterMap Component.ofPiece = ps.filterMap Component.ofPiece := by
  have dropped (qs : List String) :
      (qs.dropWhile fun piece => (Component.ofPiece piece).isNone).filterMap Component.ofPiece =
        qs.filterMap Component.ofPiece := by
    induction qs with
    | nil => rfl
    | cons piece rest ih =>
        cases component : Component.ofPiece piece with
        | none => simpa [component] using ih
        | some c => simp [component]
  rw [trimPieces, List.filterMap_reverse, dropped, List.filterMap_reverse, List.reverse_reverse]

theorem subset_trimPieces (ps : List String) : trimPieces ps ⊆ ps := fun s member => by
  rw [trimPieces, List.mem_reverse] at member
  exact List.mem_reverse.mp ((List.dropWhile_sublist _).subset member)

/-- A piece with a meaning at the front is not trimmed. -/
theorem trimPieces_cons_of_some {piece : String} {c : Component}
    (component : Component.ofPiece piece = some c) (rest : List String) :
    trimPieces (piece :: rest) = piece :: trimPieces rest := by
  rw [trimPieces, List.reverse_cons, List.dropWhile_append]
  split
  · rename_i nothing
    rw [List.isEmpty_iff] at nothing
    rw [trimPieces, nothing]
    simp [component]
  · simp [trimPieces]

theorem filterMap_dropBody (n : Nat) (ps : List String) :
    (dropBody n ps).filterMap Component.ofPiece = (ps.filterMap Component.ofPiece).drop n := by
  induction ps generalizing n with
  | nil => cases n <;> rfl
  | cons piece rest ih =>
      cases component : Component.ofPiece piece with
      | none => cases n <;> simp [dropBody, component, ih]
      | some c => cases n <;> simp [dropBody, component, ih]

theorem subset_dropBody (n : Nat) (ps : List String) : dropBody n ps ⊆ ps := by
  induction ps generalizing n with
  | nil => cases n <;> exact List.Subset.refl _
  | cons piece rest ih =>
      have later (m : Nat) : dropBody m rest ⊆ piece :: rest :=
        fun s member => List.mem_cons_of_mem piece (ih m member)
      cases n with
      | zero =>
          rw [dropBody]
          split
          · exact List.Subset.refl _
          · exact later 0
      | succ n =>
          rw [dropBody]
          split
          · exact later n
          · exact later (n + 1)

/-- Nothing is left, or what is left begins with a piece that has a meaning. -/
theorem dropBody_cases (n : Nat) (ps : List String) :
    dropBody n ps = [] ∨ ∃ piece rest c,
      dropBody n ps = piece :: rest ∧ Component.ofPiece piece = some c := by
  induction ps generalizing n with
  | nil => cases n <;> exact .inl rfl
  | cons piece rest ih =>
      cases component : Component.ofPiece piece with
      | none => cases n <;> simpa [dropBody, component] using ih _
      | some c =>
          cases n with
          | zero => exact .inr ⟨piece, rest, c, by simp [dropBody, component], component⟩
          | succ n => simpa [dropBody, component] using ih n

/-- What is spelled by what is left has just the components that are left. -/
theorem components_body (n : Nat) {ps : List String} (free : ∀ s ∈ ps, IsPiece s) :
    (ofNames (trimPieces (dropBody n ps))).components =
      (ps.filterMap Component.ofPiece).drop n := by
  rw [← filterMap_dropBody]
  rcases dropBody_cases n ps with nothing | ⟨piece, rest, c, left, component⟩
  · rw [nothing]
    rfl
  · have inside : ∀ s ∈ piece :: trimPieces rest, IsPiece s := fun s member => by
      rw [← trimPieces_cons_of_some component, ← left] at member
      exact free s (subset_dropBody n ps (subset_trimPieces _ member))
    have some : piece ≠ "" := by
      rintro rfl
      cases component
    have lead : leading piece = .some c := by
      rw [leading, if_neg some, if_neg, component]
      rintro rfl
      cases component
    rw [left, trimPieces_cons_of_some component, components,
      pieces_ofNames inside (List.cons_ne_nil _ _), componentsOfPieces_cons (.inl some), lead,
      filterMap_trimPieces, List.filterMap_cons_some component]
    rfl

/-- With nothing dropped only pieces without meaning at the end are. -/
theorem components_dropComponents_zero (p : Path) :
    (p.dropComponents 0).components = p.components := by
  obtain ⟨first, rest, pieces⟩ := List.exists_cons_of_ne_nil p.pieces_ne_nil
  have whole : p.components = componentsOfPieces (first :: rest) := congrArg _ pieces
  rw [dropComponents.eq_def, pieces, whole]
  dsimp only
  split
  · rename_i bare
    obtain ⟨rfl, more, nothing⟩ := bare
    rw [List.isEmpty_iff] at more nothing
    have none : rest.filterMap Component.ofPiece = [] := by
      rw [← filterMap_trimPieces, nothing, List.filterMap_nil]
    rw [componentsOfPieces_cons (.inr more), none]
    rfl
  · rename_i other
    have free : ∀ s ∈ first :: trimPieces rest, IsPiece s := fun s member =>
      isPiece_of_mem_pieces (p := p)
        (pieces ▸ List.cons_subset_cons first (subset_trimPieces rest) member)
    rw [show (⟨"/".intercalate (first :: trimPieces rest)⟩ : Path) = ofNames _ from rfl,
      components, pieces_ofNames free (List.cons_ne_nil _ _)]
    by_cases counts : first ≠ "" ∨ rest ≠ []
    · have kept : first ≠ "" ∨ trimPieces rest ≠ [] := by
        by_contra both
        rw [not_or, not_not, not_not] at both
        have some := counts.resolve_left (not_not_intro both.1)
        exact other ⟨both.1, by simpa using some, by simp [both.2]⟩
      exact componentsOfPieces_congr kept counts (filterMap_trimPieces rest)
    · rw [not_or, not_not, not_not] at counts
      rw [counts.1, counts.2]
      rfl

theorem components_dropComponents_succ (p : Path) (n : Nat) :
    (p.dropComponents (n + 1)).components = p.components.drop (n + 1) := by
  obtain ⟨first, rest, pieces⟩ := List.exists_cons_of_ne_nil p.pieces_ne_nil
  have whole : p.components = componentsOfPieces (first :: rest) := congrArg _ pieces
  have free : ∀ s ∈ first :: rest, IsPiece s := fun s member =>
    isPiece_of_mem_pieces (p := p) (pieces ▸ member)
  rw [dropComponents.eq_def, pieces, whole]
  dsimp only
  split
  · rename_i lead
    refine (components_body n fun s member => free s (List.mem_cons_of_mem first member)).trans ?_
    rcases lead with ⟨rfl, more⟩ | rfl
    · rw [componentsOfPieces_cons (.inr (by simpa using more))]
      rfl
    · rw [componentsOfPieces_cons (.inl (by simp))]
      rfl
  · rename_i inside
    rw [not_or, not_and, not_not, List.isEmpty_iff] at inside
    refine (components_body (n + 1) free).trans ?_
    by_cases empty : first = ""
    · rw [inside.1 empty, empty]
      simp [componentsOfPieces, Component.ofPiece]
    · rw [componentsOfPieces_cons (.inl empty), leading, if_neg empty, if_neg inside.2]
      cases component : Component.ofPiece first <;> simp [component]

/-- What follows the first components has the others, in whatever spelling. -/
theorem components_dropComponents (p : Path) (n : Nat) :
    (p.dropComponents n).components = p.components.drop n := by
  cases n with
  | zero => exact p.components_dropComponents_zero
  | succ n => exact p.components_dropComponents_succ n

/-! ## Stripping -/

theorem stripRoot_eq_none_iff {p root : Path} :
    p.stripRoot root = none ↔ ¬ root.components <+: p.components := by
  rw [stripRoot, ← List.isPrefixOf_iff_prefix]
  split <;> simp [*]

/-- Below a root a path has the components that follow those of the root. -/
theorem components_stripRoot {p root rest : Path} (stripped : p.stripRoot root = some rest) :
    p.components = root.components ++ rest.components := by
  rw [stripRoot] at stripped
  split at stripped
  · rename_i inside
    obtain ⟨below, split⟩ := List.isPrefixOf_iff_prefix.mp inside
    cases stripped
    rw [components_dropComponents, ← split, List.drop_left]
  · cases stripped

/-! ## Files of tests -/

/-- Components that make a path one of tests: a directory for them on the way, or the name at its
end. -/
def TellsTests (components : List Component) : Prop :=
  (∃ name, .normal name ∈ components ∧ (name = "tests" ∨ name = "benches")) ∨
    ∃ name, components.getLast? = some (.normal name) ∧
      (name = "tests.rs" ∨ ∃ stem, name = stem ++ "_test.rs")

theorem fileName_eq_some_iff {p : Path} {name : String} :
    p.fileName = some name ↔ p.components.getLast? = some (.normal name) := by
  rw [fileName]
  split <;> simp_all

theorem isTest_iff {p : Path} : p.isTest = true ↔ TellsTests p.components := by
  rw [isTest, Bool.or_eq_true, TellsTests]
  refine or_congr ?_ ?_
  · rw [List.any_eq_true]
    constructor
    · rintro ⟨c, member, named⟩
      cases c with
      | normal name => exact ⟨name, member, by simpa [testDirectories] using named⟩
      | _ => cases named
    · rintro ⟨name, member, named⟩
      exact ⟨_, member, by simpa [testDirectories] using named⟩
  · simp only [← fileName_eq_some_iff, ← endsWith_iff]
    cases p.fileName with
    | none => simp
    | some name => simp [or_comm]

end Path

namespace SourceFile

open SourceLint.Path (OfNamesOnly Respells TellsTests)

variable (content : String)

/-- A file below the root is known by its path from there, however the root and its own path are
spelled and whatever the root is called; any other file is known by the whole of its path. -/
theorem under_respelled (root : Path) :
    (∀ below root' path : Path, below.OfNamesOnly → Respells root root' →
      Respells (root.join below) path →
        (under root' path content).relativePath.components = below.components ∧
        ((under root' path content).isTest = true ↔ TellsTests below.components)) ∧
    ∀ path : Path, ¬ root.components <+: path.components →
      (under root path content).relativePath = path ∧
      ((under root path content).isTest = true ↔ TellsTests path.components) := by
  refine ⟨fun below root' path names spelled joined => ?_, fun path outside => ?_⟩
  · have whole : path.components = root'.components ++ below.components := by
      rw [← joined.components, Path.components_join names, spelled.components]
    obtain ⟨rest, stripped⟩ : ∃ rest, path.stripRoot root' = some rest := by
      rw [← Option.ne_none_iff_exists', ne_eq, Path.stripRoot_eq_none_iff, not_not, whole]
      exact List.prefix_append _ _
    have relative : (under root' path content).relativePath = rest := by
      rw [under, stripped, Option.getD_some]
    have same : rest.components = below.components :=
      List.append_cancel_left ((Path.components_stripRoot stripped).symm.trans whole)
    rw [isTest, relative, Path.isTest_iff, same]
    exact ⟨rfl, Iff.rfl⟩
  · have relative : (under root path content).relativePath = path := by
      rw [under, Path.stripRoot_eq_none_iff.mpr outside, Option.getD_none]
    rw [isTest, relative, Path.isTest_iff]
    exact ⟨rfl, Iff.rfl⟩

/-- What is called `tests` above the root does not count below it, but does for a neighbour of the
root whose name only begins with that of the root. -/
theorem under_neighbours :
    (⟨"src/a.rs"⟩ : Path).OfNamesOnly ∧
      Respells ⟨"/tests/proj"⟩ ⟨"/tests//proj/./"⟩ ∧
      Respells (Path.join ⟨"/tests/proj"⟩ ⟨"src/a.rs"⟩) ⟨"/tests/./proj//src/a.rs/"⟩ ∧
      (under ⟨"/tests//proj/./"⟩ ⟨"/tests/./proj//src/a.rs/"⟩ "").relativePath.components =
        [.normal "src", .normal "a.rs"] ∧
      ((under ⟨"/tests//proj/./"⟩ ⟨"/tests/./proj//src/a.rs/"⟩ "").isTest = true ↔
        TellsTests [.normal "src", .normal "a.rs"]) ∧
      ¬ (⟨"/tests/proj"⟩ : Path).components <+: (⟨"/tests/proj2/a.rs"⟩ : Path).components ∧
      (under ⟨"/tests/proj"⟩ ⟨"/tests/proj2/a.rs"⟩ "").relativePath = ⟨"/tests/proj2/a.rs"⟩ ∧
      ((under ⟨"/tests/proj"⟩ ⟨"/tests/proj2/a.rs"⟩ "").isTest = true ↔
        TellsTests [.root, .normal "tests", .normal "proj2", .normal "a.rs"]) := by
  obtain ⟨below, outside⟩ := under_respelled "" ⟨"/tests/proj"⟩
  have names : (⟨"src/a.rs"⟩ : Path).OfNamesOnly := by
    have components : (⟨"src/a.rs"⟩ : Path).components = [.normal "src", .normal "a.rs"] := by
      decide
    exact ⟨by simp [components], by simp [components]⟩
  have root : Respells ⟨"/tests/proj"⟩ ⟨"/tests//proj/./"⟩ := Path.respells_iff.mpr (by decide)
  have path : Respells (Path.join ⟨"/tests/proj"⟩ ⟨"src/a.rs"⟩) ⟨"/tests/./proj//src/a.rs/"⟩ :=
    Path.respells_iff.mpr ((Path.components_join names _).trans (by decide))
  have neighbour :
      ¬ (⟨"/tests/proj"⟩ : Path).components <+: (⟨"/tests/proj2/a.rs"⟩ : Path).components := by
    decide
  obtain ⟨relative, tests⟩ := below _ _ _ names root path
  obtain ⟨whole, testsThere⟩ := outside _ neighbour
  exact ⟨names, root, path, relative, tests, neighbour, whole, testsThere⟩

end SourceFile

end SourceLint
