import SourceLint.Proofs.Path.Below

/-! # Spellings of a path

A path can be spelled with a separator more, with a `.` between two names and with either at its
end. Two texts spell one path by these exactly where they have the same components, so each path
has one plain spelling that all others come down to.
-/

namespace SourceLint.Path

/-! ## Texts and pieces -/

theorem intercalate_cutChars (mark : Char) (cs : List Char) :
    [mark].intercalate (Text.cutChars mark cs) = cs := by
  induction cs with
  | nil => rfl
  | cons c cs ih =>
      obtain ⟨part, parts, cut⟩ := List.exists_cons_of_ne_nil (Text.cutChars_ne_nil mark cs)
      rw [Text.cutChars]
      split
      · rename_i same
        rw [cut, List.intercalate_cons_cons, ← cut, ih, same]
        rfl
      · rw [cut] at ih ⊢
        cases parts with
        | nil => simpa using ih
        | cons next more => rw [List.intercalate_cons_cons] at ih ⊢; simpa using ih

/-- A path is spelled by its pieces. -/
theorem ofNames_pieces (p : Path) : ofNames p.pieces = p := by
  have text : ("/".intercalate p.pieces).toList = p.text.toList := by
    rw [String.toList_intercalate, pieces, Text.cut, List.map_map]
    simpa [Function.comp_def] using intercalate_cutChars '/' p.text.toList
  exact congrArg mk (String.toList_injective text)

theorem pieces_ne_nil (p : Path) : p.pieces ≠ [] := by
  simp [pieces, Text.cut, Text.cutChars_ne_nil]

/-- The component that a first piece stands for, where others follow it. -/
def leading (piece : String) : Option Component :=
  if piece = "" then some .root else if piece = "." then some .current else Component.ofPiece piece

theorem componentsOfPieces_cons {first : String} {rest : List String}
    (counts : first ≠ "" ∨ rest ≠ []) :
    componentsOfPieces (first :: rest) =
      (leading first).toList ++ rest.filterMap Component.ofPiece := by
  rw [componentsOfPieces, leading]
  by_cases empty : first = ""
  · have more : rest.isEmpty = false := by simpa using counts.resolve_left (not_not_intro empty)
    simp [empty, more]
  · simp [empty]

/-- Pieces without meaning add nothing behind the first one. -/
theorem componentsOfPieces_congr {first : String} {rest rest' : List String}
    (counts : first ≠ "" ∨ rest ≠ []) (counts' : first ≠ "" ∨ rest' ≠ [])
    (same : rest.filterMap Component.ofPiece = rest'.filterMap Component.ofPiece) :
    componentsOfPieces (first :: rest) = componentsOfPieces (first :: rest') := by
  rw [componentsOfPieces_cons counts, componentsOfPieces_cons counts', same]

/-! ## Respelling -/

/-- The two texts spell one path: the one comes from the other by separators and `.` pieces that
are put in or left out, each of them behind a separator or at the end. -/
inductive Respells : Path → Path → Prop where
  | separator (front back : String) : Respells ⟨front ++ "/" ++ back⟩ ⟨front ++ "//" ++ back⟩
  | current (front back : String) : Respells ⟨front ++ "/" ++ back⟩ ⟨front ++ "/./" ++ back⟩
  | trailing {front : String} (some : front ≠ "") : Respells ⟨front⟩ ⟨front ++ "/"⟩
  | trailingCurrent (front : String) : Respells ⟨front ++ "/"⟩ ⟨front ++ "/."⟩
  | refl (p : Path) : Respells p p
  | symm {p q : Path} : Respells p q → Respells q p
  | trans {p q r : Path} : Respells p q → Respells q r → Respells p r

/-! ### What is kept -/

/-- Only the empty path is one empty piece. -/
theorem counts_of_pieces {p : Path} (some : p.text ≠ "") {first : String} {rest : List String}
    (pieces : p.pieces = first :: rest) : first ≠ "" ∨ rest ≠ [] := by
  by_contra both
  obtain ⟨rfl, rfl⟩ : first = "" ∧ rest = [] := by simpa using both
  exact some (congrArg text (p.ofNames_pieces.symm.trans (congrArg ofNames pieces)))

theorem components_separated (front middle back : String) (piece : IsPiece middle)
    (nothing : Component.ofPiece middle = none) :
    components ⟨front ++ "/" ++ middle ++ "/" ++ back⟩ = components ⟨front ++ "/" ++ back⟩ := by
  obtain ⟨first, rest, pieces⟩ := List.exists_cons_of_ne_nil (pieces_ne_nil ⟨front⟩)
  have some := pieces_ne_nil ⟨back⟩
  rw [components, components, pieces_append, pieces_append, pieces_append, piece.pieces, pieces]
  refine componentsOfPieces_congr (.inr (by simp)) (.inr (by simp [some])) ?_
  simp [nothing]

theorem components_trailing {front : String} (some : front ≠ "") :
    components ⟨front ++ "/"⟩ = components ⟨front⟩ := by
  obtain ⟨first, rest, pieces⟩ := List.exists_cons_of_ne_nil (pieces_ne_nil ⟨front⟩)
  have counts := counts_of_pieces (p := ⟨front⟩) some pieces
  rw [components, components, pieces_trailing, pieces]
  refine componentsOfPieces_congr (.inr (by simp)) counts ?_
  simp [Component.ofPiece]

theorem components_trailingCurrent (front : String) :
    components ⟨front ++ "/."⟩ = components ⟨front ++ "/"⟩ := by
  obtain ⟨first, rest, pieces⟩ := List.exists_cons_of_ne_nil (pieces_ne_nil ⟨front⟩)
  have last : (⟨front ++ "/."⟩ : Path).pieces = Path.pieces ⟨front⟩ ++ Path.pieces ⟨"."⟩ := by
    rw [← pieces_append, String.append_assoc]
    rfl
  have piece : IsPiece "." := by simp [IsPiece]
  rw [components, components, last, piece.pieces, pieces_trailing, pieces]
  refine componentsOfPieces_congr (.inr (by simp)) (.inr (by simp)) ?_
  simp [Component.ofPiece]

theorem Respells.components {p q : Path} (respelled : Respells p q) :
    p.components = q.components := by
  induction respelled with
  | separator front back =>
      rw [← components_separated front "" back (by simp [IsPiece]) rfl]
      simp only [String.append_empty, String.append_assoc]
      rfl
  | current front back =>
      rw [← components_separated front "." back (by simp [IsPiece]) rfl]
      simp only [String.append_assoc]
      rfl
  | trailing some => exact (components_trailing some).symm
  | trailingCurrent front => exact (components_trailingCurrent front).symm
  | refl => rfl
  | symm _ ih => exact ih.symm
  | trans _ _ ih ih' => exact ih.trans ih'

/-! ### The plain spelling -/

/-- The piece that spells a component. -/
def Component.piece : Component → String
  | root => ""
  | current => "."
  | parent => ".."
  | normal name => name

/-- The spelling of components with nothing in between that has no meaning. -/
def plain (components : List Component) : Path :=
  if components = [.root] then ⟨"/"⟩ else ofNames (components.map Component.piece)

theorem piece_of_ofPiece {piece : String} {c : Component}
    (component : Component.ofPiece piece = some c) : c.piece = piece := by
  rw [Component.ofPiece] at component
  split at component
  · cases component
  · split at component
    · rename_i parent
      cases component
      exact parent.symm
    · cases component
      rfl

theorem ofPiece_eq_none_iff {piece : String} :
    Component.ofPiece piece = none ↔ piece = "" ∨ piece = "." := by
  rw [Component.ofPiece]
  split
  · rename_i either
    exact iff_of_true rfl either
  · rename_i neither
    refine iff_of_false ?_ neither
    split <;> exact Option.some_ne_none _

/-- The pieces among these that have a meaning. -/
def kept (pieces : List String) : List String :=
  (pieces.filterMap Component.ofPiece).map Component.piece

theorem kept_cons_of_some {piece : String} {c : Component}
    (component : Component.ofPiece piece = some c) (more : List String) :
    kept (piece :: more) = piece :: kept more := by
  rw [kept, List.filterMap_cons_some component, List.map_cons, piece_of_ofPiece component, kept]

theorem kept_cons_of_none {piece : String} (nothing : Component.ofPiece piece = none)
    (more : List String) : kept (piece :: more) = kept more := by
  rw [kept, List.filterMap_cons_none nothing, kept]

/-- The path of the pieces behind `front`; the root of the file system is a separator alone. -/
def behind (front : String) (pieces : List String) : Path :=
  if front = "" ∧ pieces = [] then ⟨"/"⟩ else ofNames (front :: pieces)

theorem ofNames_cons_cons (front piece : String) (more : List String) :
    ofNames (front :: piece :: more) = ofNames ((front ++ "/" ++ piece) :: more) := by
  refine congrArg mk ((text_ofNames_cons front (List.cons_ne_nil piece more)).trans ?_)
  by_cases last : more = []
  · subst last
    simp [ofNames, String.intercalate_singleton]
  · rw [text_ofNames_cons piece last, ← String.append_assoc, ← String.append_assoc]
    exact (text_ofNames_cons _ last).symm

/-- A piece without meaning at the end can go. -/
theorem respells_last (front : String) {piece : String} (nothing : Component.ofPiece piece = none) :
    Respells (ofNames [front, piece]) (behind front []) := by
  have closing : Respells ⟨front ++ "/"⟩ (behind front []) := by
    by_cases empty : front = ""
    · subst empty
      exact .refl _
    · rw [behind, if_neg fun both => empty both.1, ofNames, String.intercalate_singleton]
      exact (Respells.trailing empty).symm
  have text : ofNames [front, piece] = ⟨front ++ "/" ++ piece⟩ := by
    rw [ofNames_cons_cons, ofNames, String.intercalate_singleton]
  rw [text]
  rcases ofPiece_eq_none_iff.mp nothing with rfl | rfl
  · rwa [String.append_empty]
  · rw [String.append_assoc]
    exact (Respells.trailingCurrent front).symm.trans closing

/-- A piece without meaning in front of others can go. -/
theorem respells_inner (front : String) {piece : String} (nothing : Component.ofPiece piece = none)
    {more : List String} (some : more ≠ []) :
    Respells (ofNames (front :: piece :: more)) (ofNames (front :: more)) := by
  have long : ofNames (front :: piece :: more) =
      ⟨front ++ "/" ++ piece ++ "/" ++ (ofNames more).text⟩ := by
    rw [ofNames_cons_cons]
    exact congrArg mk (text_ofNames_cons _ some)
  have short : ofNames (front :: more) = ⟨front ++ "/" ++ (ofNames more).text⟩ :=
    congrArg mk (text_ofNames_cons front some)
  rw [long, short]
  rcases ofPiece_eq_none_iff.mp nothing with rfl | rfl
  · have doubled := (Respells.separator front (ofNames more).text).symm
    rwa [show "//" = "/" ++ "" ++ "/" from rfl, ← String.append_assoc, ← String.append_assoc]
      at doubled
  · have dotted := (Respells.current front (ofNames more).text).symm
    rwa [show "/./" = "/" ++ "." ++ "/" from rfl, ← String.append_assoc, ← String.append_assoc]
      at dotted

/-- All pieces without meaning can go, one after the other. -/
theorem respells_behind (rest : List String) {front : String} (counts : front ≠ "" ∨ rest ≠ []) :
    Respells (ofNames (front :: rest)) (behind front (kept rest)) := by
  induction rest generalizing front with
  | nil =>
      rw [behind, if_neg fun both => counts.elim (absurd both.1) (absurd rfl)]
      exact .refl _
  | cons piece more ih =>
      cases component : Component.ofPiece piece with
      | some c =>
          have long : front ++ "/" ++ piece ≠ "" := by simp
          have onward := ih (.inl long)
          rw [behind, if_neg fun both => long both.1, ← ofNames_cons_cons, ← ofNames_cons_cons]
            at onward
          rwa [kept_cons_of_some component, behind, if_neg fun both => List.cons_ne_nil _ _ both.2]
      | none =>
          rw [kept_cons_of_none component]
          by_cases last : more = []
          · subst last
            exact respells_last front component
          · exact (respells_inner front component last).trans (ih (.inr last))

theorem exists_leading (piece : String) :
    ∃ c, leading piece = some c ∧ c.piece = piece ∧ (c = .root ↔ piece = "") := by
  rw [leading]
  split
  · rename_i empty
    exact ⟨.root, rfl, empty.symm, iff_of_true rfl empty⟩
  · rename_i some
    split
    · rename_i dot
      exact ⟨.current, rfl, dot.symm, iff_of_false Component.noConfusion some⟩
    · rename_i other
      cases component : Component.ofPiece piece with
      | none => exact absurd (ofPiece_eq_none_iff.mp component) (not_or.mpr ⟨some, other⟩)
      | some c =>
          have same := piece_of_ofPiece component
          refine ⟨c, rfl, same, iff_of_false ?_ some⟩
          rintro rfl
          exact some same.symm

theorem respells_plain (p : Path) : Respells p (plain p.components) := by
  by_cases empty : p.text = ""
  · obtain ⟨_⟩ := p
    subst empty
    exact .refl _
  · obtain ⟨first, rest, pieces⟩ := List.exists_cons_of_ne_nil p.pieces_ne_nil
    have counts := counts_of_pieces empty pieces
    obtain ⟨c, component, same, root⟩ := exists_leading first
    have plainly : plain p.components = behind first (kept rest) := by
      rw [components, pieces, componentsOfPieces_cons counts, component, plain, behind, kept]
      simp [root, same]
    have spelled := respells_behind rest counts
    rwa [← pieces, ofNames_pieces, ← plainly] at spelled

/-- Two texts are spellings of one path exactly where they have the same components. -/
theorem respells_iff {p q : Path} : Respells p q ↔ p.components = q.components := by
  refine ⟨Respells.components, fun same => ?_⟩
  have plainly := respells_plain q
  rw [← same] at plainly
  exact (respells_plain p).trans plainly.symm

end SourceLint.Path
