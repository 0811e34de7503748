import SourceLint.FileTree

/-! # Looking up by components

Of the pieces of a path only its components lead anywhere. Two paths with the same
components therefore lead to the same file, if both lead to one: a separator at the end
still asks for a directory.
-/

namespace SourceLint

/-- The piece that leads on by a component, if it leads on. -/
def Path.Component.piece? : Component → Option String
  | root | current => none
  | parent => some ".."
  | normal name => some name

/-- The piece leads on. -/
def leadsOn (piece : String) : Bool :=
  piece ≠ "" && piece ≠ "."

theorem Path.Component.ofPiece_piece? (piece : String) :
    (ofPiece piece).bind piece? = if leadsOn piece then some piece else none := by
  unfold ofPiece leadsOn
  split
  · rename_i stays
    rcases stays with rfl | rfl <;> rfl
  · rename_i leads
    obtain ⟨named, other⟩ := not_or.mp leads
    split
    · rename_i parent
      subst parent
      rfl
    · simp [piece?, named, other]

theorem Path.filterMap_piece? (rest : List String) :
    (rest.filterMap Component.ofPiece).filterMap Component.piece? = rest.filter leadsOn := by
  rw [List.filterMap_filterMap]
  induction rest with
  | nil => rfl
  | cons piece rest ih =>
      rw [List.filterMap_cons, Component.ofPiece_piece?, ih, List.filter_cons]
      cases leadsOn piece <;> rfl

/-- The components of a path tell which of its pieces lead on. -/
theorem Path.components_pieces (p : Path) :
    p.components.filterMap Component.piece? = p.pieces.filter leadsOn := by
  rw [components]
  cases p.pieces with
  | nil => rfl
  | cons first rest =>
      rw [componentsOfPieces, List.filterMap_append, filterMap_piece?, List.filter_cons]
      by_cases empty : first = ""
      · subst empty
        cases rest.isEmpty <;> rfl
      · by_cases here : first = "."
        · subst here
          rfl
        · have leads : leadsOn first = true := by simp [leadsOn, empty, here]
          have piece := Component.ofPiece_piece? first
          rw [if_pos leads] at piece
          rw [if_pos leads, if_neg empty, if_neg here]
          cases component : Component.ofPiece first with
          | none =>
              rw [component] at piece
              cases piece
          | some found =>
              rw [component, Option.bind_some] at piece
              simp [piece]

namespace FileTree

/-- A way that is found is found by the pieces that lead on. -/
theorem foldlM_leadsOn {pieces : List String} {way last : FileTree × List FileTree}
    (found : pieces.foldlM step way = .ok last) :
    (pieces.filter leadsOn).foldlM step way = .ok last := by
  induction pieces generalizing way with
  | nil => exact found
  | cons piece rest ih =>
      rw [List.foldlM_cons] at found
      cases next : step way piece with
      | error e =>
          rw [next] at found
          cases found
      | ok mid =>
          rw [next] at found
          rw [List.filter_cons]
          cases leads : leadsOn piece with
          | true =>
              rw [if_pos rfl, List.foldlM_cons, next]
              exact ih found
          | false =>
              have stays : piece = "" ∨ piece = "." := by
                simpa [leadsOn, Decidable.or_iff_not_imp_left] using leads
              have same : mid = way := by
                obtain ⟨here, above⟩ := way
                cases here with
                | file bytes => cases next
                | directory entries =>
                    simp only [step, if_pos stays] at next
                    cases next
                    rfl
              rw [if_neg Bool.false_ne_true, ← same]
              exact ih found

/-- Paths with the same components lead to the same place. -/
theorem find_eq {tree found found' : FileTree} {p q : Path}
    (same : p.components = q.components) (first : tree.find p = .ok found)
    (second : tree.find q = .ok found') : found = found' := by
  have pieces : p.pieces.filter leadsOn = q.pieces.filter leadsOn := by
    rw [← Path.components_pieces, ← Path.components_pieces, same]
  rw [find] at first second
  cases way : p.pieces.foldlM step (tree, []) with
  | error e =>
      rw [way] at first
      cases first
  | ok last =>
      cases way' : q.pieces.foldlM step (tree, []) with
      | error e =>
          rw [way'] at second
          cases second
      | ok last' =>
          rw [way] at first
          rw [way'] at second
          cases first
          cases second
          have there := foldlM_leadsOn way
          rw [pieces, foldlM_leadsOn way'] at there
          cases there
          rfl

/-- Paths with the same components have the same text, if both have one. -/
theorem read_eq {tree : FileTree} {p q : Path} {content content' : String}
    (same : p.components = q.components) (first : tree.read p = .ok content)
    (second : tree.read q = .ok content') : content = content' := by
  rw [read] at first second
  cases found : tree.find p with
  | error e =>
      rw [found] at first
      cases first
  | ok file =>
      cases found' : tree.find q with
      | error e =>
          rw [found'] at second
          cases second
      | ok file' =>
          rw [found] at first
          rw [found', ← find_eq same found found'] at second
          exact Except.ok.inj (first.symm.trans second)

end FileTree

end SourceLint
