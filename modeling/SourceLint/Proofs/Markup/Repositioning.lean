import Mathlib.Data.List.Nodup
import SourceLint.Proofs.Binding.FirstFault

/-! # One tree at other positions

Two elements can differ in nothing but where they stand. Where the positions of both increase in
document order, one function that keeps the order takes those of the one to those of the other.
-/

namespace SourceLint

namespace Markup.Element

mutual

/-- The element with other positions, for itself and for all that are in it. -/
def mapPositions (f : Option Position → Option Position) : Element → Element
  | ⟨name, attributes, children, at_⟩ => ⟨name, attributes, mapPositionsEach f children, f at_⟩

/-- The elements with other positions, one after the other. -/
def mapPositionsEach (f : Option Position → Option Position) : List Element → List Element
  | [] => []
  | child :: rest => mapPositions f child :: mapPositionsEach f rest

end

/-- The element without its positions. -/
def bare (e : Element) : Element :=
  e.mapPositions fun _ => none

variable (f : Option Position → Option Position)

theorem mapPositionsEach_eq (elements : List Element) :
    mapPositionsEach f elements = elements.map (mapPositions f) := by
  induction elements with
  | nil => rfl
  | cons child rest ih => rw [mapPositionsEach, ih, List.map_cons]

@[simp] theorem mapPositions_name (e : Element) : (e.mapPositions f).name = e.name := by
  cases e
  rfl

@[simp] theorem mapPositions_attributes (e : Element) :
    (e.mapPositions f).attributes = e.attributes := by
  cases e
  rfl

@[simp] theorem mapPositions_position (e : Element) : (e.mapPositions f).position = f e.position := by
  cases e
  rfl

@[simp] theorem mapPositions_children (e : Element) :
    (e.mapPositions f).children = e.children.map (mapPositions f) := by
  cases e
  exact mapPositionsEach_eq f _

/-- What elements without positions have in common, they have with the elements themselves. -/
theorem bare_eq_bare_iff {e other : Element} :
    other.bare = e.bare ↔ other.name = e.name ∧ other.attributes = e.attributes ∧
      other.children.map bare = e.children.map bare := by
  cases e
  cases other
  simp only [bare, mapPositions, mapPositionsEach_eq, mk.injEq, and_true]
  rfl

end Markup.Element

namespace Binding

open Markup (Element)
open Markup.Element (nodesOfEach positions bare mapPositions bare_eq_bare_iff)

/-! ## The positions of a tree -/

/-- The positions of elements, where they have one. -/
def places (nodes : List Element) : List (Option Position) :=
  nodes.map (·.position)

/-- Every element has a position. -/
def Placed (nodes : List Element) : Prop :=
  ∀ node ∈ nodes, node.position.isSome

theorem Placed.places_eq {nodes : List Element} (placed : Placed nodes) :
    places nodes = (positions nodes).map some := by
  induction nodes with
  | nil => rfl
  | cons node rest ih =>
      obtain ⟨here, later⟩ := List.forall_mem_cons.mp placed
      obtain ⟨p, at_⟩ := Option.isSome_iff_exists.mp here
      have same := ih later
      rw [places] at same ⊢
      rw [List.map_cons, same, positions, positions, List.filterMap_cons_some at_, at_, List.map_cons]

theorem length_nodesOfEach {children others : List Element}
    (inside : ∀ child ∈ children, ∀ other : Element, other.bare = child.bare →
      other.nodes.length = child.nodes.length)
    (same : others.map bare = children.map bare) :
    (nodesOfEach others).length = (nodesOfEach children).length := by
  induction children generalizing others with
  | nil =>
      rw [List.map_nil, List.map_eq_nil_iff] at same
      rw [same]
  | cons child rest ih =>
      cases others with
      | nil => cases same
      | cons other others =>
          rw [List.map_cons, List.map_cons, List.cons.injEq] at same
          obtain ⟨here, later⟩ := List.forall_mem_cons.mp inside
          rw [nodesOfEach, nodesOfEach, List.length_append, List.length_append, here other same.1,
            ih later same.2]

/-- Elements that differ in positions alone have equally many elements in them. -/
theorem length_nodes {e other : Element} (same : other.bare = e.bare) :
    other.nodes.length = e.nodes.length := by
  induction e using Markup.Element.ofChildren generalizing other with
  | step e ih =>
      obtain ⟨_, _, children⟩ := bare_eq_bare_iff.mp same
      have inside := length_nodesOfEach (fun child member _ same => ih child member same) children
      rw [nodes_eq, nodes_eq, List.length_cons, List.length_cons, inside]

section

variable {f : Option Position → Option Position}

theorem eq_map_mapPositions {children others : List Element}
    (inside : ∀ child ∈ children, ∀ other : Element, other.bare = child.bare →
      places other.nodes = (places child.nodes).map f → other = child.mapPositions f)
    (same : others.map bare = children.map bare)
    (at_ : places (nodesOfEach others) = (places (nodesOfEach children)).map f) :
    others = children.map (mapPositions f) := by
  induction children generalizing others with
  | nil => exact List.map_eq_nil_iff.mp same
  | cons child rest ih =>
      cases others with
      | nil => cases same
      | cons other others =>
          rw [List.map_cons, List.map_cons, List.cons.injEq] at same
          rw [nodesOfEach, nodesOfEach, places, places, List.map_append, List.map_append,
            List.map_append] at at_
          obtain ⟨here, later⟩ := List.append_inj at_ (by simp [length_nodes same.1])
          obtain ⟨insideHere, insideLater⟩ := List.forall_mem_cons.mp inside
          rw [List.map_cons, insideHere other same.1 here, ← ih insideLater same.2 later]

/-- An element is determined by its tree and the positions in it. -/
theorem eq_mapPositions {e other : Element} (same : other.bare = e.bare)
    (at_ : places other.nodes = (places e.nodes).map f) : other = e.mapPositions f := by
  induction e using Markup.Element.ofChildren generalizing other with
  | step e ih =>
      obtain ⟨name, attributes, children⟩ := bare_eq_bare_iff.mp same
      rw [nodes_eq, nodes_eq, places, places, List.map_cons, List.map_cons, List.map_cons,
        List.cons.injEq] at at_
      have inside := eq_map_mapPositions (fun child member _ same at_ => ih child member same at_)
        children at_.2
      cases e
      cases other
      simp only at name attributes inside at_
      rw [mapPositions, Markup.Element.mapPositionsEach_eq, name, attributes, inside, at_.1]

end

/-! ## One order for both -/

deriving instance ReflBEq, LawfulBEq for Position

theorem compare_self (p : Position) : compare p p = .eq :=
  Std.ReflCmp.compare_self

/-- Two increasing lists of positions are matched by a function that keeps their order. -/
theorem exists_matching {l l' : List Position} (increasing : l.Pairwise (compare · · = .lt))
    (increasing' : l'.Pairwise (compare · · = .lt)) (length : l'.length = l.length) :
    ∃ π : Position → Position, l' = l.map π ∧
      ∀ p ∈ l, ∀ q ∈ l, compare (π p) (π q) = compare p q := by
  have distinct : l.Nodup := increasing.imp fun {p q} before same => by
    rw [same, compare_self] at before
    cases before
  have places (i : Nat) (bound : i < l.length) : l'.getD (l.idxOf l[i]) .start = l'[i] := by
    rw [distinct.idxOf_getElem, List.getElem_eq_getD]
  refine ⟨fun p => l'.getD (l.idxOf p) .start, ?_, fun p here q there => ?_⟩
  · refine List.ext_getElem (by rw [List.length_map, length]) fun i bound _ => ?_
    rw [List.getElem_map, places]
  · obtain ⟨i, first, rfl⟩ := List.getElem_of_mem here
    obtain ⟨j, second, rfl⟩ := List.getElem_of_mem there
    rw [List.pairwise_iff_getElem] at increasing increasing'
    simp only [places]
    rcases Nat.lt_trichotomy i j with before | rfl | behind
    · rw [increasing i j first second before, increasing' i j _ _ before]
    · rw [compare_self, compare_self]
    · have turned := increasing j i second first behind
      have turned' := increasing' j i (by omega) (by omega) behind
      rw [Std.OrientedCmp.gt_iff_lt.mpr turned, Std.OrientedCmp.gt_iff_lt.mpr turned']

/-- Of two elements that differ in positions alone, and whose positions increase, the one is the
other with its positions taken elsewhere in the same order. -/
theorem exists_mapPositions {e other : Element} (same : other.bare = e.bare)
    (placed : Placed e.nodes) (placed' : Placed other.nodes) (increasing : Increasing e.nodes)
    (increasing' : Increasing other.nodes) :
    ∃ π : Position → Position, other = e.mapPositions (Option.map π) ∧
      ∀ p ∈ positions e.nodes, ∀ q ∈ positions e.nodes, compare (π p) (π q) = compare p q := by
  have length : (positions other.nodes).length = (positions e.nodes).length := by
    have total := length_nodes same
    have count := congrArg List.length placed.places_eq
    have count' := congrArg List.length placed'.places_eq
    simp only [places, List.length_map] at count count'
    omega
  obtain ⟨π, matched, order⟩ := exists_matching increasing increasing' length
  refine ⟨π, eq_mapPositions same ?_, order⟩
  rw [placed.places_eq, placed'.places_eq, matched, List.map_map, List.map_map]
  rfl

end Binding

end SourceLint
