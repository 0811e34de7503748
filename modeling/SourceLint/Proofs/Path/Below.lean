import SourceLint.Proofs.Bank.Contents
import SourceLint.Proofs.Path.Pieces

/-! # Paths below a root

What lies below a root goes by a path of its own, in which the root has no part. The same
path below another root compares with its neighbours as it did below the first.
-/

namespace SourceLint.Path

/-- The path that names spell, seen from the directory in which they begin. -/
def ofNames (names : List String) : Path :=
  ⟨"/".intercalate names⟩

variable {names names' : List String}

theorem text_ofNames_cons (s : String) (some : names ≠ []) :
    (ofNames (s :: names)).text = s ++ "/" ++ (ofNames names).text :=
  String.intercalate_cons_of_ne_nil some

theorem pieces_ofNames (free : ∀ s ∈ names, IsPiece s) (some : names ≠ []) :
    (ofNames names).pieces = names := by
  induction names with
  | nil => exact absurd rfl some
  | cons s rest ih =>
      have piece := free s List.mem_cons_self
      by_cases last : rest = []
      · subst last
        exact (congrArg (fun text => pieces ⟨text⟩) String.intercalate_singleton).trans piece.pieces
      · rw [show ofNames (s :: rest) = ⟨_⟩ from congrArg mk (text_ofNames_cons s last),
          pieces_append, piece.pieces]
        exact congrArg (s :: ·) (ih (fun t member => free t (List.mem_cons_of_mem _ member)) last)

theorem not_isAbsolute_ofNames (proper : ∀ s ∈ names, IsName s) :
    (ofNames names).isAbsolute = false := by
  by_cases some : names = []
  · subst some
    decide
  · rw [Bool.eq_false_iff]
    intro absolute
    obtain ⟨rest, _, pieces⟩ := pieces_of_isAbsolute absolute
    rw [pieces_ofNames (fun s member => (proper s member).piece) some] at pieces
    exact (proper "" (pieces ▸ List.mem_cons_self)).ne_empty rfl

/-! ## Joining -/

/-- What stands ahead of a relative path that is joined to the path. -/
def lead (p : Path) : String :=
  if p.endsOpen then p.text else p.text ++ "/"

theorem text_join {q : Path} (relative : q.isAbsolute = false) (p : Path) :
    (p.join q).text = p.lead ++ q.text := by
  rw [join, relative, if_neg Bool.false_ne_true, lead]
  by_cases isOpen : p.endsOpen = true
  · rw [if_pos isOpen, if_pos (by simpa [endsOpen] using isOpen)]
  · rw [if_neg isOpen, if_neg (by simpa [endsOpen] using isOpen)]

theorem exists_lead {p : Path} (absolute : p.isAbsolute = true) :
    ∃ front, p.lead = front ++ "/" := by
  rw [lead]
  by_cases isOpen : p.endsOpen = true
  · rw [if_pos isOpen]
    rw [endsOpen, Bool.or_eq_true, decide_eq_true_eq, endsWith_iff] at isOpen
    refine isOpen.resolve_left fun empty => ?_
    obtain ⟨t, text⟩ := isAbsolute_iff.mp absolute
    exact absurd (text.symm.trans empty) (by simp)
  · exact ⟨p.text, if_neg isOpen⟩

theorem join_ofNames (p : Path) (proper : ∀ s ∈ names, IsName s) (some : names ≠ []) :
    p.join (ofNames names) = p.descend names := by
  induction names generalizing p with
  | nil => exact absurd rfl some
  | cons s rest ih =>
      have name := proper s List.mem_cons_self
      have later : ∀ t ∈ rest, IsName t := fun t member => proper t (List.mem_cons_of_mem _ member)
      by_cases last : rest = []
      · subst last
        exact congrArg p.join (congrArg mk String.intercalate_singleton)
      · have closed : (p.join ⟨s⟩).lead = (p.join ⟨s⟩).text ++ "/" := by
          rw [lead, endsOpen_join p name.piece, decide_eq_false name.ne_empty]
          rfl
        have onward : (p.join ⟨s⟩).join (ofNames rest) = p.descend (s :: rest) := ih _ later last
        rw [← onward]
        have texts : (p.join (ofNames (s :: rest))).text =
            ((p.join ⟨s⟩).join (ofNames rest)).text := by
          rw [text_join (not_isAbsolute_ofNames proper), text_ofNames_cons s last,
            text_join (not_isAbsolute_ofNames later), closed, text_join name.piece.not_isAbsolute]
          simp only [String.append_assoc]
        exact congrArg mk texts

/-- The names among the components of a path are among its pieces. -/
theorem mem_components_iff {p : Path} (absolute : p.isAbsolute = true) {s : String}
    (name : IsName s) : .normal s ∈ p.components ↔ s ∈ p.stem := by
  obtain ⟨rest, stem, components⟩ := components_stem absolute
  have among : .normal s ∈ rest.filterMap Component.ofPiece ↔ s ∈ rest := by
    rw [List.mem_filterMap]
    constructor
    · rintro ⟨piece, member, component⟩
      rw [Component.ofPiece] at component
      split at component
      · cases component
      · split at component
        · cases component
        · cases component
          exact member
    · exact fun member => ⟨s, member, name.ofPiece⟩
  rw [stem, components, List.mem_cons, List.mem_cons, among]
  refine or_congr_left (iff_of_false ?_ name.ne_empty)
  intro root
  cases root

/-! ## Stripping the root -/

theorem dropBody_append (proper : ∀ s ∈ names, IsName s) (some : names ≠ [])
    (rest : List String) :
    dropBody (rest.filterMap Component.ofPiece).length (rest ++ names) = names := by
  induction rest with
  | nil =>
      obtain ⟨s, more, rfl⟩ := List.exists_cons_of_ne_nil some
      simp [dropBody, (proper s List.mem_cons_self).ofPiece]
  | cons piece rest ih =>
      cases component : Component.ofPiece piece with
      | none =>
          rw [List.filterMap_cons, component, List.cons_append]
          refine Eq.trans ?_ ih
          cases (rest.filterMap Component.ofPiece).length <;> simp [dropBody, component]
      | some c => simpa [dropBody, component] using ih

theorem trimPieces_names (proper : ∀ s ∈ names, IsName s) : trimPieces names = names := by
  rcases List.eq_nil_or_concat' names with rfl | ⟨front, s, rfl⟩
  · rfl
  · have name := (proper s (by simp)).ofPiece
    rw [trimPieces, List.reverse_append, List.reverse_singleton, List.singleton_append,
      List.dropWhile_cons_of_neg (by simp [name]), List.reverse_cons, List.reverse_reverse]

instance : LawfulBEq Component where
  rfl {c} := by cases c <;> simp [BEq.beq, instBEqComponent.beq]
  eq_of_beq {c d} same := by
    cases c <;> cases d <;> simp_all [BEq.beq, instBEqComponent.beq]

section Roots

variable {root base : Path} (absolute : base.isAbsolute = true)
  (spelled : base.components = root.components)

include absolute spelled

/-- Below its root a path is what its names spell, whatever stands above. -/
theorem stripRoot_descend (proper : ∀ s ∈ names, IsName s) (some : names ≠ []) :
    (base.descend names).stripRoot root = Option.some (ofNames names) := by
  obtain ⟨rest, stem, components⟩ := components_stem absolute
  have inside : root.components.isPrefixOf (base.descend names).components = true := by
    rw [components_descend absolute proper, spelled]
    exact List.isPrefixOf_iff_prefix.mpr (List.prefix_append _ _)
  have pieces : (base.descend names).pieces = "" :: (rest ++ names) := by
    rw [pieces_descend base proper some, stem, List.cons_append]
  have dropped : (base.descend names).dropComponents root.components.length = ofNames names := by
    rw [← spelled, components, List.length_cons, dropComponents.eq_def, pieces]
    simp [some, ofNames, dropBody_append proper some, trimPieces_names proper]
  rw [stripRoot, inside, if_pos rfl, dropped]

end Roots

/-- The path at another root, if it lies below the first. -/
def moved (first second p : Path) : Path :=
  match p.stripRoot first with
  | some rest => second.join rest
  | none => p

theorem moved_descend {root base other : Path} (absolute : base.isAbsolute = true)
    (spelled : base.components = root.components) (proper : ∀ s ∈ names, IsName s)
    (some : names ≠ []) : moved root other (base.descend names) = other.descend names := by
  rw [moved, stripRoot_descend absolute spelled proper some]
  exact join_ofNames other proper some

/-! ## Comparing -/

theorem compare_append {A : Type} [Ord A] [Std.ReflOrd A] (front l m : List A) :
    compare (front ++ l) (front ++ m) = compare l m := by
  induction front with
  | nil => rfl
  | cons x rest ih =>
      rw [List.cons_append, List.cons_append]
      change List.compareLex compare _ _ = _
      rw [List.compareLex_cons_cons, Std.ReflOrd.compare_self]
      exact ih

theorem compare_descend {base : Path} (absolute : base.isAbsolute = true)
    (proper : ∀ s ∈ names, IsName s) (proper' : ∀ s ∈ names', IsName s) :
    compare (base.descend names) (base.descend names') =
      compare (names.map Component.normal) (names'.map Component.normal) := by
  change compare (base.descend names).components (base.descend names').components = _
  rw [components_descend absolute proper, components_descend absolute proper', compare_append]

end SourceLint.Path
