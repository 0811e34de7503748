import SourceLint.Proofs.Binding.FirstFault
import SourceLint.Proofs.Markup.Spelling

/-! # Where the elements of a document stand

Each element of a spelled document has the position of the `<` that opens it, and so the positions
increase in document order.
-/

namespace SourceLint

namespace Position

theorem compare_after {cs : List Char} (nonempty : cs ≠ []) (p : Position) :
    compare p (p.after cs) = .lt := by
  induction cs generalizing p with
  | nil => exact absurd rfl nonempty
  | cons c cs ih =>
      rw [after_cons]
      cases cs with
      | nil => exact compare_next p c
      | cons d cs => exact Std.TransCmp.lt_trans (compare_next p c) (ih (List.cons_ne_nil _ _) _)

end Position

namespace Markup

open Binding (Increasing nodes_eq)
open Element (nodesOfEach positions)
open Position (behind behind_append compare_after)

/-- In the text `cs`, which comes behind `before`, a `<` and the name of the element stand where
the element does. -/
def StandsIn (before cs : List Char) (node : Element) : Prop :=
  ∃ inner outer, cs = inner ++ '<' :: (node.name.toList ++ outer) ∧
    node.position = some (behind (before ++ inner))

variable {before cs more : List Char} {node : Element}

theorem StandsIn.append_right (stands : StandsIn before cs node) (more : List Char) :
    StandsIn before (cs ++ more) node := by
  obtain ⟨inner, outer, rfl, placed⟩ := stands
  exact ⟨inner, outer ++ more, by simp, placed⟩

theorem StandsIn.append_left (stands : StandsIn (before ++ cs) more node) :
    StandsIn before (cs ++ more) node := by
  obtain ⟨inner, outer, rfl, placed⟩ := stands
  exact ⟨cs ++ inner, outer, by rw [List.append_assoc], by rw [placed, List.append_assoc]⟩

/-- An element that stands in a text stands before those in the text that follows. -/
theorem StandsIn.precedes {other : Element} {p q : Position} (stands : StandsIn before cs node)
    (later : StandsIn (before ++ cs) more other) (placed : node.position = some p)
    (placedLater : other.position = some q) : compare p q = .lt := by
  obtain ⟨inner, outer, rfl, at_⟩ := stands
  obtain ⟨between, _, _, atLater⟩ := later
  obtain rfl := Option.some.inj (placed.symm.trans at_)
  obtain rfl := Option.some.inj (placedLater.symm.trans atLater)
  rw [← List.append_assoc, List.append_assoc, behind_append (before ++ inner)]
  exact compare_after (by simp) _

/-- The elements of a text and those of the text that follows it stand in one order. -/
theorem increasing_append {first second : List Element} (increasing : Increasing first)
    (increasingLater : Increasing second) (stand : ∀ node ∈ first, StandsIn before cs node)
    (standLater : ∀ node ∈ second, StandsIn (before ++ cs) more node) :
    Increasing (first ++ second) := by
  rw [Increasing, positions, List.filterMap_append, List.pairwise_append]
  refine ⟨increasing, increasingLater, fun p here q there => ?_⟩
  obtain ⟨node, member, placed⟩ := List.mem_filterMap.mp here
  obtain ⟨other, memberLater, placedLater⟩ := List.mem_filterMap.mp there
  exact (stand node member).precedes (standLater other memberLater) placed placedLater

theorem increasing_singleton (node : Element) : Increasing [node] := by
  rw [Increasing, positions]
  cases placed : node.position <;> simp [placed]

theorem SpellsTag.stands {name : String} {attributes : List Attribute} {tag : List Char}
    (spells : SpellsTag name attributes tag) (children : List Element) :
    StandsIn before tag ⟨name, attributes, children, some (behind before)⟩ := by
  obtain @⟨cs, gap, _, _, _, _⟩ := spells
  exact ⟨[], cs ++ gap, by simp, by rw [List.append_nil]⟩

mutual

/-- Every element that is spelled in a text stands in it. -/
theorem SpellsElement.stand {before cs : List Char} {e : Element} :
    SpellsElement before cs e → ∀ node ∈ e.nodes, StandsIn before cs node
  | .empty spells => by
      rw [nodes_eq]
      exact List.forall_mem_singleton.mpr ((spells.stands []).append_right _)
  | .full spells inside closes => by
      rw [nodes_eq]
      refine List.forall_mem_cons.mpr ⟨?_, fun node member => ?_⟩
      · rw [List.append_assoc, List.append_assoc]
        exact (spells.stands _).append_right _
      · exact (inside.stand node member).append_left.append_right _

theorem SpellsContent.stand {before cs : List Char} {children : List Element} :
    SpellsContent before cs children → ∀ node ∈ nodesOfEach children, StandsIn before cs node
  | .nil => List.forall_mem_nil _
  | .text _ _ rest | .comment _ rest | .instruction _ rest | .data _ rest =>
      fun node member => (rest.stand node member).append_left
  | .child spells rest => List.forall_mem_append.mpr
      ⟨fun node member => (spells.stand node member).append_right _,
        fun node member => (rest.stand node member).append_left⟩

end

mutual

theorem SpellsElement.increasing {before cs : List Char} {e : Element} :
    SpellsElement before cs e → Increasing e.nodes
  | .empty spells => by
      rw [nodes_eq]
      exact increasing_singleton _
  | .full spells inside closes => by
      rw [nodes_eq]
      exact increasing_append (increasing_singleton _) inside.increasing
        (List.forall_mem_singleton.mpr ((spells.stands _).append_right ['>'])) inside.stand

theorem SpellsContent.increasing {before cs : List Char} {children : List Element} :
    SpellsContent before cs children → Increasing (nodesOfEach children)
  | .nil => .nil
  | .text _ _ rest | .comment _ rest | .instruction _ rest | .data _ rest => rest.increasing
  | .child spells rest =>
      increasing_append spells.increasing rest.increasing spells.stand rest.stand

end

/-- Every element of a document has the position of a `<` that its name follows, by the lines and
columns in front of it. -/
theorem SpellsDocument.stand {text : String} {root : Element} (spells : SpellsDocument text root) :
    ∀ node ∈ root.nodes, StandsIn [] text.toList node := by
  obtain @⟨mark, declaration, prolog, cs, epilog, split, _, _, _, spells, _⟩ := spells
  intro node member
  have stands : StandsIn ([] ++ (mark ++ declaration ++ prolog)) cs node := spells.stand node member
  rw [split]
  exact stands.append_left.append_right epilog

theorem SpellsDocument.increasing {text : String} {root : Element}
    (spells : SpellsDocument text root) : Increasing root.nodes := by
  obtain ⟨_, _, _, _, spells, _⟩ := spells
  exact spells.increasing

end Markup

end SourceLint
