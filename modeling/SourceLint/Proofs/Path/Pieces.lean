import Mathlib.Data.List.Basic
import SourceLint.Path

/-! # The pieces of a path

Joining a name to a path adds a piece to it, and takes the place of the empty piece that a
separator at the end leaves. Without that empty piece the pieces of a path are its stem, and
a stem only ever grows at its end.
-/

namespace SourceLint

/-! ## Cutting -/

namespace Text

theorem cutChars_ne_nil (mark : Char) (cs : List Char) : cutChars mark cs ≠ [] := by
  cases cs with
  | nil => simp [cutChars]
  | cons c cs =>
      rw [cutChars]
      split
      · simp
      · split <;> simp

theorem cutChars_append_mark (mark : Char) (cs ds : List Char) :
    cutChars mark (cs ++ mark :: ds) = cutChars mark cs ++ cutChars mark ds := by
  induction cs with
  | nil => simp [cutChars]
  | cons c cs ih =>
      rw [List.cons_append, cutChars, cutChars, ih]
      split
      · rfl
      · obtain ⟨part, parts, split⟩ := List.exists_cons_of_ne_nil (cutChars_ne_nil mark cs)
        rw [split]
        rfl

theorem cutChars_of_not_mem {mark : Char} {cs : List Char} (free : mark ∉ cs) :
    cutChars mark cs = [cs] := by
  induction cs with
  | nil => rfl
  | cons c cs ih =>
      obtain ⟨here, later⟩ := not_or.mp (mt List.mem_cons.mpr free)
      rw [cutChars, if_neg (Ne.symm here), ih later]

theorem cut_append (mark : Char) (s t : String) :
    cut mark (s ++ mark.toString ++ t) = cut mark s ++ cut mark t := by
  have text : (s ++ mark.toString ++ t).toList = s.toList ++ mark :: t.toList := by simp
  rw [cut, text, cutChars_append_mark, List.map_append]
  rfl

theorem cut_of_not_mem {mark : Char} {s : String} (free : mark ∉ s.toList) : cut mark s = [s] := by
  rw [cut, cutChars_of_not_mem free, List.map_singleton, String.ofList_toList]

theorem not_mem_of_mem_cutChars {mark : Char} {cs part : List Char}
    (member : part ∈ cutChars mark cs) : mark ∉ part := by
  induction cs generalizing part with
  | nil =>
      cases List.mem_singleton.mp member
      simp
  | cons c cs ih =>
      rw [cutChars] at member
      split at member
      · rcases List.mem_cons.mp member with rfl | later
        · simp
        · exact ih later
      · rename_i other
        split at member
        · cases List.mem_singleton.mp member
          simpa using Ne.symm other
        · rename_i first parts split
          rcases List.mem_cons.mp member with rfl | later
          · have free := ih (split ▸ List.mem_cons_self)
            simp [free, Ne.symm other]
          · exact ih (split ▸ List.mem_cons_of_mem _ later)

theorem subset_of_mem_cutChars {mark : Char} {cs part : List Char}
    (member : part ∈ cutChars mark cs) : part ⊆ cs := by
  induction cs generalizing part with
  | nil =>
      cases List.mem_singleton.mp member
      simp
  | cons c cs ih =>
      rw [cutChars] at member
      split at member
      · rcases List.mem_cons.mp member with rfl | later
        · simp
        · exact List.subset_cons_of_subset c (ih later)
      · split at member
        · cases List.mem_singleton.mp member
          simp
        · rename_i first parts split
          rcases List.mem_cons.mp member with rfl | later
          · exact List.cons_subset_cons c (ih (split ▸ List.mem_cons_self))
          · exact List.subset_cons_of_subset c (ih (split ▸ List.mem_cons_of_mem _ later))

theorem subset_of_mem_cut {mark : Char} {s part : String} (member : part ∈ cut mark s) :
    part.toList ⊆ s.toList := by
  obtain ⟨cs, inside, rfl⟩ := List.mem_map.mp member
  rw [String.toList_ofList]
  exact subset_of_mem_cutChars inside

theorem not_mem_of_mem_cut {mark : Char} {s part : String} (member : part ∈ cut mark s) :
    mark ∉ part.toList := by
  obtain ⟨cs, inside, rfl⟩ := List.mem_map.mp member
  rw [String.toList_ofList]
  exact not_mem_of_mem_cutChars inside

end Text

namespace Path

/-- The text has no separator in it. -/
def IsPiece (s : String) : Prop :=
  '/' ∉ s.toList

theorem pieces_append (s t : String) :
    pieces ⟨s ++ "/" ++ t⟩ = pieces ⟨s⟩ ++ pieces ⟨t⟩ :=
  Text.cut_append '/' s t

theorem pieces_trailing (front : String) : pieces ⟨front ++ "/"⟩ = pieces ⟨front⟩ ++ [""] := by
  have last := pieces_append front ""
  rwa [String.append_empty] at last

theorem IsPiece.pieces {s : String} (piece : IsPiece s) : Path.pieces ⟨s⟩ = [s] :=
  Text.cut_of_not_mem piece

theorem isPiece_of_mem_pieces {p : Path} {s : String} (member : s ∈ p.pieces) : IsPiece s :=
  Text.not_mem_of_mem_cut member

/-! ## Joining -/

/-- A name joined to the path follows it without a separator in between. -/
def endsOpen (p : Path) : Bool :=
  p.text = "" || p.text.endsWith "/"

/-- The pieces but for the empty one that a separator at the end leaves. -/
def stem (p : Path) : List String :=
  if p.endsOpen then p.pieces.dropLast else p.pieces

theorem isAbsolute_iff {p : Path} : p.isAbsolute = true ↔ ∃ t, p.text = "/" ++ t := by
  rw [isAbsolute, String.startsWith_string_iff]
  constructor
  · rintro ⟨t, split⟩
    exact ⟨String.ofList t, String.toList_injective (by simpa using split.symm)⟩
  · rintro ⟨t, split⟩
    exact ⟨t.toList, by rw [split, String.toList_append]⟩

theorem endsWith_iff {s ending : String} : s.endsWith ending = true ↔ ∃ t, s = t ++ ending := by
  rw [← String.endsWith_toSlice, String.Slice.endsWith_string_iff]
  constructor
  · rintro ⟨t, split⟩
    exact ⟨String.ofList t, String.toList_injective (by simpa using split.symm)⟩
  · rintro ⟨t, split⟩
    exact ⟨t.toList, by simp [split]⟩

theorem IsPiece.not_isAbsolute {s : String} (piece : IsPiece s) :
    isAbsolute ⟨s⟩ = false := by
  rw [Bool.eq_false_iff]
  intro absolute
  obtain ⟨t, rfl⟩ := isAbsolute_iff.mp absolute
  exact piece (by simp)

theorem pieces_of_endsOpen {p : Path} (isOpen : p.endsOpen = true) :
    p.pieces = p.stem ++ [""] := by
  rw [stem, if_pos isOpen]
  rw [endsOpen, Bool.or_eq_true, decide_eq_true_eq, endsWith_iff] at isOpen
  obtain ⟨text⟩ := p
  rcases isOpen with rfl | ⟨t, rfl⟩
  · rfl
  · rw [pieces_trailing, List.dropLast_concat]

theorem pieces_of_not_endsOpen {p : Path} (closed : p.endsOpen = false) : p.pieces = p.stem := by
  rw [stem, closed]
  rfl

theorem stem_of_endsOpen {p : Path} (isOpen : p.endsOpen = true) {t : String}
    (text : p.text = t ++ "/") : p.stem = pieces ⟨t⟩ := by
  have split := pieces_of_endsOpen isOpen
  obtain ⟨_⟩ := p
  subst text
  exact (List.append_inj_left' ((pieces_trailing t).symm.trans split) rfl).symm

/-- A path that is joined to another continues the stem of that. -/
theorem pieces_join_of_relative (p : Path) {q : Path} (relative : q.isAbsolute = false) :
    (p.join q).pieces = p.stem ++ q.pieces := by
  rw [join, relative, if_neg Bool.false_ne_true]
  split
  · rename_i either
    have isOpen : p.endsOpen = true := by simpa [endsOpen] using either
    rcases either with empty | slash
    · have nothing : p.pieces = [""] := by
        rw [pieces, empty]
        rfl
      rw [empty, String.empty_append, stem, if_pos isOpen, nothing]
      rfl
    · obtain ⟨t, text⟩ := endsWith_iff.mp slash
      rw [text, pieces_append, stem_of_endsOpen isOpen text]
  · rename_i neither
    have closed : p.endsOpen = false := by simpa [endsOpen] using neither
    rw [pieces_append, ← pieces_of_not_endsOpen closed]

theorem pieces_join (p : Path) {s : String} (piece : IsPiece s) :
    (p.join ⟨s⟩).pieces = p.stem ++ [s] := by
  rw [pieces_join_of_relative p piece.not_isAbsolute, piece.pieces]

theorem exists_text_join (p q : Path) : ∃ front, (p.join q).text = front ++ q.text := by
  rw [join]
  split
  · exact ⟨"", String.empty_append.symm⟩
  · split
    · exact ⟨p.text, rfl⟩
    · exact ⟨p.text ++ "/", rfl⟩

theorem endsOpen_join (p : Path) {s : String} (piece : IsPiece s) :
    (p.join ⟨s⟩).endsOpen = decide (s = "") := by
  by_cases empty : s = ""
  · subst empty
    rw [join, piece.not_isAbsolute, if_neg Bool.false_ne_true]
    split
    · rename_i either
      simpa [endsOpen] using either
    · have slash : (p.text ++ "/").endsWith "/" = true := endsWith_iff.mpr ⟨p.text, rfl⟩
      rw [endsOpen, String.append_empty, slash, Bool.or_true]
      rfl
  · obtain ⟨front, text⟩ := exists_text_join p ⟨s⟩
    rw [decide_eq_false empty, endsOpen, text, Bool.or_eq_false_iff, decide_eq_false_iff_not]
    refine ⟨by simp [empty], Bool.eq_false_iff.mpr fun slash => piece ?_⟩
    obtain ⟨t, split⟩ := endsWith_iff.mp slash
    have last : (front ++ s).toList.getLast? = some '/' := by simp [split]
    rw [String.toList_append, List.getLast?_append_of_ne_nil _ (by simpa using empty)] at last
    exact List.mem_of_getLast? last

/-- The empty piece that a separator leaves is not part of the stem. -/
theorem stem_join (p : Path) {s : String} (piece : IsPiece s) :
    (p.join ⟨s⟩).stem = if s = "" then p.stem else p.stem ++ [s] := by
  rw [stem, endsOpen_join p piece, pieces_join p piece]
  by_cases empty : s = "" <;> simp [empty]

/-! ## Descending -/

/-- The text is the name of an entry of a directory. -/
structure IsName (s : String) : Prop where
  piece : IsPiece s
  ofPiece : Component.ofPiece s = some (.normal s)

theorem IsName.ne_empty {s : String} (name : IsName s) : s ≠ "" := by
  rintro rfl
  cases name.ofPiece

/-- The path that leads on from `p` by one name after the other. -/
def descend (p : Path) (names : List String) : Path :=
  names.foldl child p

theorem descend_append (p : Path) (names others : List String) :
    p.descend (names ++ others) = (p.descend names).descend others :=
  List.foldl_append

theorem stem_descend (p : Path) {pieces : List String} (free : ∀ s ∈ pieces, IsPiece s) :
    (p.descend pieces).stem = p.stem ++ pieces.filter (· ≠ "") := by
  induction pieces generalizing p with
  | nil => simp [descend]
  | cons s rest ih =>
      change ((p.child s).descend rest).stem = _
      rw [ih _ fun t member => free t (List.mem_cons_of_mem _ member), child,
        stem_join p (free s List.mem_cons_self)]
      by_cases empty : s = "" <;> simp [empty]

theorem stem_descend_names (p : Path) {names : List String} (proper : ∀ s ∈ names, IsName s) :
    (p.descend names).stem = p.stem ++ names := by
  have all : names.filter (· ≠ "") = names := by
    rw [List.filter_eq_self]
    intro s member
    exact decide_eq_true (proper s member).ne_empty
  rw [stem_descend p fun s member => (proper s member).piece, all]

theorem pieces_descend (p : Path) {names : List String} (proper : ∀ s ∈ names, IsName s)
    (some : names ≠ []) : (p.descend names).pieces = p.stem ++ names := by
  obtain ⟨front, s, rfl⟩ := (List.eq_nil_or_concat' names).resolve_left some
  have name := proper s (by simp)
  rw [descend_append]
  change ((p.descend front).join ⟨s⟩).pieces = _
  rw [pieces_join _ name.piece, stem_descend_names p fun t member => proper t (by simp [member]),
    List.append_assoc]

/-! ## Components -/

theorem pieces_of_isAbsolute {p : Path} (absolute : p.isAbsolute = true) :
    ∃ rest, rest ≠ [] ∧ p.pieces = "" :: rest := by
  obtain ⟨t, text⟩ := isAbsolute_iff.mp absolute
  obtain ⟨_⟩ := p
  subst text
  refine ⟨pieces ⟨t⟩, by simp [pieces, Text.cut, Text.cutChars_ne_nil], ?_⟩
  have cut := pieces_append "" t
  rwa [String.empty_append] at cut

/-- The components of a path that begins at the root of the file system. -/
theorem components_of_isAbsolute {p : Path} (absolute : p.isAbsolute = true) :
    p.components = .root :: p.pieces.tail.filterMap Component.ofPiece := by
  obtain ⟨rest, some, pieces⟩ := pieces_of_isAbsolute absolute
  rw [components, pieces, componentsOfPieces, if_pos rfl, if_neg (by simpa using some)]
  rfl

theorem components_stem {p : Path} (absolute : p.isAbsolute = true) :
    ∃ rest, p.stem = "" :: rest ∧ p.components = .root :: rest.filterMap Component.ofPiece := by
  obtain ⟨rest, some, pieces⟩ := pieces_of_isAbsolute absolute
  rw [components_of_isAbsolute absolute, pieces, List.tail_cons]
  cases isOpen : p.endsOpen with
  | false => exact ⟨rest, (pieces_of_not_endsOpen isOpen).symm.trans pieces, rfl⟩
  | true =>
      rw [pieces_of_endsOpen isOpen] at pieces
      rcases List.append_eq_cons_iff.mp pieces with ⟨_, last⟩ | ⟨front, stem, last⟩
      · exact absurd (List.cons_eq_cons.mp last.symm).2 some
      · refine ⟨front, stem, ?_⟩
        rw [last, List.filterMap_append]
        simp [Component.ofPiece]

theorem isAbsolute_join {p : Path} (absolute : p.isAbsolute = true) (q : Path) :
    (p.join q).isAbsolute = true := by
  obtain ⟨t, text⟩ := isAbsolute_iff.mp absolute
  rw [join]
  split
  · assumption
  · split
    · exact isAbsolute_iff.mpr ⟨t ++ q.text, by rw [text, String.append_assoc]⟩
    · exact isAbsolute_iff.mpr ⟨t ++ "/" ++ q.text, by simp only [text, String.append_assoc]⟩

theorem isAbsolute_descend {p : Path} (absolute : p.isAbsolute = true) (pieces : List String) :
    (p.descend pieces).isAbsolute = true := by
  induction pieces generalizing p with
  | nil => exact absolute
  | cons s rest ih => exact ih (isAbsolute_join absolute ⟨s⟩)

theorem filterMap_ofPiece {names : List String} (proper : ∀ s ∈ names, IsName s) :
    names.filterMap Component.ofPiece = names.map .normal := by
  induction names with
  | nil => rfl
  | cons s rest ih =>
      rw [List.filterMap_cons, (proper s List.mem_cons_self).ofPiece,
        ih fun t member => proper t (List.mem_cons_of_mem _ member)]
      rfl

/-- Descending by names adds them to the components. -/
theorem components_descend {p : Path} (absolute : p.isAbsolute = true) {names : List String}
    (proper : ∀ s ∈ names, IsName s) :
    (p.descend names).components = p.components ++ names.map .normal := by
  obtain ⟨rest, stem, components⟩ := components_stem absolute
  obtain ⟨below, stem', components'⟩ := components_stem (isAbsolute_descend absolute names)
  rw [stem_descend_names p proper, stem, List.cons_append] at stem'
  cases stem'
  rw [components', components, List.filterMap_append, filterMap_ofPiece proper]
  rfl

/-- Descending by other names leads to other components. -/
theorem names_eq_of_components {p : Path} (absolute : p.isAbsolute = true)
    {names names' : List String} (proper : ∀ s ∈ names, IsName s) (proper' : ∀ s ∈ names', IsName s)
    (same : (p.descend names).components = (p.descend names').components) : names = names' := by
  rw [components_descend absolute proper, components_descend absolute proper'] at same
  exact List.map_injective_iff.mpr (fun _ _ => Component.normal.inj) (List.append_cancel_left same)

end Path

end SourceLint
