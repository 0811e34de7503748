import SourceLint.Proofs.Binding.Lookup
import SourceLint.Proofs.Binding.Repositioning

/-! # Positions are carried

Whether an element fits its schema, and what it is bound to, does not depend on where it stands.
Its position goes to what is bound in its place, or to the fault that is found with it.
-/

namespace SourceLint

mutual

/-- A bound element and all that are in it, in document order. -/
def Bound.nodes : Bound → List Bound
  | ⟨name, values, children, at_⟩ => ⟨name, values, children, at_⟩ :: nodesOfEach children

/-- The nodes of bound elements, one after the other. -/
def Bound.nodesOfEach : List Bound → List Bound
  | [] => []
  | child :: rest => nodes child ++ nodesOfEach rest

end

namespace Bound

/-- The bound element without its positions. -/
def bare (b : Bound) : Bound :=
  b.mapPositions fun _ => none

theorem nodes_eq (b : Bound) : b.nodes = b :: nodesOfEach b.children := by
  cases b
  rfl

variable (f : Option Position → Option Position)

mutual

theorem nodes_mapPositions (b : Bound) :
    (b.mapPositions f).nodes = b.nodes.map (mapPositions f) := by
  cases b with
  | mk name values children at_ =>
      rw [mapPositions, nodes, nodes, List.map_cons, mapPositions, nodesOfEach_mapPositions]

theorem nodesOfEach_mapPositions (bounds : List Bound) :
    nodesOfEach (mapPositionsEach f bounds) = (nodesOfEach bounds).map (mapPositions f) := by
  cases bounds with
  | nil => rfl
  | cons b rest =>
      rw [mapPositionsEach, nodesOfEach, nodesOfEach, List.map_append, nodes_mapPositions,
        nodesOfEach_mapPositions]

end

theorem position_of_mem_bare {b node : Bound} (member : node ∈ b.bare.nodes) :
    node.position = none := by
  rw [bare, nodes_mapPositions] at member
  obtain ⟨inner, _, rfl⟩ := List.mem_map.mp member
  rw [mapPositions_position]

end Bound

namespace Binding

open Markup (Element)
open Markup.Element (nodesOfEach)

/-- The fault without its position. -/
def Error.bare (e : Error) : Error :=
  e.mapPositions fun _ => none

section

variable (f : Option Position → Option Position) (e : Error)

@[simp] theorem Error.message_mapPositions : (e.mapPositions f).message = e.message := by
  cases e <;> rfl

@[simp] theorem Error.isMissingChild_mapPositions :
    (e.mapPositions f).isMissingChild = e.isMissingChild := by
  cases e <;> rfl

/-- A missing child has no position to take elsewhere. -/
theorem Error.position?_mapPositions :
    (e.mapPositions f).position? = if e.isMissingChild then none else f e.position? := by
  cases e <;> rfl

end

/-! ## Where the bound elements stand -/

theorem positions_imageOfEach {s : Schema} {children : List Element}
    (declared : ∀ child ∈ children, ∃ inner, s.child? child.name = some inner)
    (inside : ∀ child ∈ children, ∀ inner, s.child? child.name = some inner →
      (image inner child).nodes.map (·.position) = places child.nodes) :
    (Bound.nodesOfEach (imageOfEach s children)).map (·.position) =
      places (nodesOfEach children) := by
  induction children with
  | nil => rfl
  | cons child rest ih =>
      obtain ⟨⟨inner, found⟩, declared⟩ := List.forall_mem_cons.mp declared
      obtain ⟨here, inside⟩ := List.forall_mem_cons.mp inside
      rw [imageOfEach_cons found, Bound.nodesOfEach, List.map_append, here inner found,
        ih declared inside, nodesOfEach, places, places, places, List.map_append]

theorem positions_image {s : Schema} {e : Element} (conforms : Conforms s e) :
    (image s e).nodes.map (·.position) = places e.nodes := by
  induction e using Markup.Element.ofChildren generalizing s with
  | step e ih =>
      cases conforms with
      | intro _ _ declared _ _ inside =>
          have below := positions_imageOfEach declared fun child member inner found =>
            ih child member (inside child member inner found)
          rw [Bound.nodes_eq, List.map_cons, image_position, image_children, below, nodes_eq,
            places, places, List.map_cons]

theorem bind_eq_ok_iff {s : Schema} {root : Element} {b : Bound} :
    bind s root = .ok b ↔ root.name = s.name ∧ Conforms s root ∧ image s root = b := by
  by_cases named : root.name = s.name
  · simp [bind, named, bindNode_eq_ok_iff]
  · simp [bind, named]

theorem isAbout_of_bind {s : Schema} {root : Element} {e : Error}
    (rejected : bind s root = .error e) : ∃ node ∈ root.nodes, e.IsAbout node := by
  rw [bind] at rejected
  split at rejected
  · rw [bindNode_eq, firstOr_eq_error_iff] at rejected
    exact faults_isAbout s root e (List.mem_of_mem_head? rejected)
  · cases rejected
    exact ⟨root, nodes_self root, rfl, rfl⟩

/-! ## Every tree -/

/-- Binding the tree takes its positions along and does not look at them. -/
structure Carries (s : Schema) (root : Element) : Prop where
  /-- At other positions the tree is bound to the same at those, or has the same fault there. -/
  natural : ∀ f, bind s (root.mapPositions f) =
    ((bind s root).map (Bound.mapPositions f)).mapError (Error.mapPositions f)
  /-- The fault is told in the same words, and stands where its element has been taken. -/
  told : ∀ f e, bind s root = .error e → ∃ e', bind s (root.mapPositions f) = .error e' ∧
    e'.message = e.message ∧ e'.isMissingChild = e.isMissingChild ∧
    e'.position? = if e.isMissingChild then none else f e.position?
  /-- A tree that differs in its positions alone is bound to what differs in positions alone. -/
  unseen : ∀ other, other.bare = root.bare →
    ((bind s other).map Bound.bare).mapError Error.bare =
      ((bind s root).map Bound.bare).mapError Error.bare
  /-- Without positions the tree is bound to the same values, all of them without positions. -/
  accepted_bare : ∀ b, bind s root.bare = .ok b ↔ ∃ b', bind s root = .ok b' ∧ b = b'.bare
  unplaced : ∀ b, bind s root.bare = .ok b → ∀ node ∈ b.nodes, node.position = none
  /-- Without positions the tree has the same fault, which has no position either. -/
  rejected_bare : ∀ e, bind s root.bare = .error e ↔ ∃ e', bind s root = .error e' ∧ e = e'.bare
  nowhere : ∀ e, bind s root.bare = .error e → e.position? = none
  /-- Every bound element stands where the element does that it was made of. -/
  placed : ∀ b, bind s root = .ok b → b.nodes.map (·.position) = places root.nodes
  /-- A fault stands where the element does that it is about. -/
  about : ∀ e, bind s root = .error e → ∃ node ∈ root.nodes, e.IsAbout node

theorem bind_carries (s : Schema) (root : Element) : Carries s root := by
  have bare : bind s root.bare = ((bind s root).map Bound.bare).mapError Error.bare :=
    bind_mapPositions (fun _ => none) s root
  have accepted (b : Bound) :
      bind s root.bare = .ok b ↔ ∃ b', bind s root = .ok b' ∧ b = b'.bare := by
    rw [bare]
    cases bind s root <;> simp [Except.map, Except.mapError, eq_comm]
  have rejected (e : Error) :
      bind s root.bare = .error e ↔ ∃ e', bind s root = .error e' ∧ e = e'.bare := by
    rw [bare]
    cases bind s root <;> simp [Except.map, Except.mapError, eq_comm]
  refine {
    natural := fun f => bind_mapPositions f s root
    told := fun f e fault => ?_
    unseen := fun other same => ?_
    accepted_bare := accepted
    unplaced := fun b bound node member => ?_
    rejected_bare := rejected
    nowhere := fun e fault => ?_
    placed := fun b bound => ?_
    about := fun e => isAbout_of_bind }
  · refine ⟨e.mapPositions f, ?_, e.message_mapPositions f, e.isMissingChild_mapPositions f,
      e.position?_mapPositions f⟩
    rw [bind_mapPositions, fault]
    rfl
  · rw [← bare, ← same]
    exact (bind_mapPositions (fun _ => none) s other).symm
  · obtain ⟨_, _, rfl⟩ := (accepted b).mp bound
    exact Bound.position_of_mem_bare member
  · obtain ⟨e', _, rfl⟩ := (rejected e).mp fault
    rw [Error.bare, Error.position?_mapPositions, ite_self]
  · obtain ⟨_, conforms, rfl⟩ := bind_eq_ok_iff.mp bound
    exact positions_image conforms

end Binding

end SourceLint
