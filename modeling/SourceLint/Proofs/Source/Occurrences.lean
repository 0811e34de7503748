import Mathlib.Data.List.Basic
import SourceLint.Source.TestCode

/-! # What occurs in a syntax tree

A tree is a number of nodes, each with the items around it. The nodes are listed in the order in
which a reader of the whole tree comes to them, so the functions that a tree defines and the names
that it uses are listed with them. What is part of a called path is told from the rest, and so are
the attributes of such a call.
-/

namespace SourceLint.Source

variable {W : Name → Prop}

/-- An item around a part of a tree. -/
structure Enclosure (W : Name → Prop) where
  kind : ItemKind W
  attributes : List Attribute

/-- What is around a part of a tree. -/
structure Surroundings (W : Name → Prop) where
  /-- The items, the innermost first. -/
  items : List (Enclosure W) := []
  /-- It belongs to a path that is called, or to the attributes of such a call. -/
  inCallee : Bool := false

namespace Surroundings

/-- Inside a further item. -/
def within (around : Surroundings W) (kind : ItemKind W) (attributes : List Attribute) :
    Surroundings W :=
  { around with items := ⟨kind, attributes⟩ :: around.items }

/-- At what is called, and at the attributes of the call. Only a path makes a difference. -/
def calling (around : Surroundings W) : Node W → Surroundings W
  | .path _ _ => { around with inCallee := true }
  | _ => around

end Surroundings

/-- A node of a tree, with what is around it. -/
structure Occurrence (W : Name → Prop) where
  around : Surroundings W
  node : Node W

mutual

/-- A node and all nodes in it, in the order in which they are come to. -/
def occurrences (around : Surroundings W) : Node W → List (Occurrence W)
  | .path name parts => ⟨around, .path name parts⟩ :: occurrencesInAll around parts
  | .call attributes callee arguments =>
    ⟨around, .call attributes callee arguments⟩ ::
      (occurrencesInAll (around.calling callee) attributes ++
        occurrences (around.calling callee) callee ++ occurrencesInAll around arguments)
  | .methodCall name parts => ⟨around, .methodCall name parts⟩ :: occurrencesInAll around parts
  | .imported name => [⟨around, .imported name⟩]
  | .operation first parts =>
    ⟨around, .operation first parts⟩ ::
      (occurrences around first ++ occurrencesInAll around parts)
  | .item kind attributes parts =>
    ⟨around, .item kind attributes parts⟩ ::
      occurrencesInAll (around.within kind attributes) parts
  | .group parts => ⟨around, .group parts⟩ :: occurrencesInAll around parts
  | .unread => [⟨around, .unread⟩]

/-- All nodes in some nodes, one after the other. -/
def occurrencesInAll (around : Surroundings W) : List (Node W) → List (Occurrence W)
  | [] => []
  | node :: nodes => occurrences around node ++ occurrencesInAll around nodes

end

/-- All nodes of a file. -/
def Tree.occurrences (tree : Tree W) : List (Occurrence W) :=
  occurrencesInAll {} (tree.values ++ tree.items)

/-! ## Definitions and uses -/

/-- A function that a tree defines. -/
structure Definition (W : Name → Prop) where
  name : Word W
  /-- It has a visibility of its own. -/
  visible : Bool
  /-- It belongs to an implementation. -/
  isMethod : Bool
  /-- What is around its parts, the function itself first. -/
  around : Surroundings W

/-- The function that a node defines. -/
def Occurrence.definition? (o : Occurrence W) : Option (Definition W) :=
  match o.node with
  | .item (.function name visible) attributes _ =>
    some ⟨name, visible, false, o.around.within (.function name visible) attributes⟩
  | .item (.method name visible) attributes _ =>
    some ⟨name, visible, true, o.around.within (.method name visible) attributes⟩
  | _ => none

/-- All functions of a file, at any depth. -/
def Tree.definitions (tree : Tree W) : List (Definition W) :=
  tree.occurrences.filterMap Occurrence.definition?

/-- The names that a node uses by itself. -/
def Node.uses : Node W → List (Word W)
  | path name _ | call _ (path name _) _ | methodCall name _ | imported name => [name]
  | _ => []

/-! ## Nothing is left out -/

namespace Node

/-- A node is a path, or it is none whatever the name. -/
theorem exists_path_or_ne (node : Node W) :
    (∃ name parts, node = path name parts) ∨ ∀ name parts, node ≠ path name parts := by
  cases node with
  | path name parts => exact .inl ⟨name, parts, rfl⟩
  | _ => exact .inr nofun

/-- What a node is made of. -/
def parts : Node W → List (Node W)
  | path _ parts | methodCall _ parts | item _ _ parts | group parts => parts
  | call attributes callee arguments => attributes ++ callee :: arguments
  | operation first parts => first :: parts
  | imported _ | unread => []

/-- A node is in another one, at any depth, or it is that one. -/
inductive Contains : Node W → Node W → Prop where
  | self (node : Node W) : Contains node node
  | part {node part inner : Node W} (member : part ∈ node.parts) (inside : Contains part inner) :
      Contains node inner

theorem contains_iff (node inner : Node W) : node.Contains inner ↔
    inner = node ∨ ∃ part ∈ node.parts, part.Contains inner := by
  constructor
  · rintro (_ | ⟨member, inside⟩)
    · exact .inl rfl
    · exact .inr ⟨_, member, inside⟩
  · rintro (rfl | ⟨part, member, inside⟩)
    · exact .self _
    · exact .part member inside

end Node

mutual

/-- The nodes that occur in a node are those that it contains. -/
theorem exists_occurrence_iff (inner : Node W) (around : Surroundings W) : (node : Node W) →
    ((∃ o ∈ occurrences around node, o.node = inner) ↔ node.Contains inner)
  | .path name parts => by
      have within := exists_occurrenceInAll_iff inner around parts
      rw [occurrences, List.exists_mem_cons_iff, within, Node.contains_iff, eq_comm]
      rfl
  | .call attributes callee arguments => by
      have first := exists_occurrenceInAll_iff inner (around.calling callee) attributes
      have called := exists_occurrence_iff inner (around.calling callee) callee
      have given := exists_occurrenceInAll_iff inner around arguments
      simp only [occurrences, List.exists_mem_cons_iff, List.mem_append, or_and_right, exists_or,
        first, called, given]
      rw [Node.contains_iff (.call attributes callee arguments), eq_comm]
      simp only [Node.parts, List.mem_append, List.mem_cons, or_and_right, exists_or,
        exists_eq_left, or_assoc]
  | .methodCall name parts => by
      have within := exists_occurrenceInAll_iff inner around parts
      rw [occurrences, List.exists_mem_cons_iff, within, Node.contains_iff, eq_comm]
      rfl
  | .imported name => by
      rw [occurrences, List.exists_mem_cons_iff, Node.contains_iff, eq_comm, Node.parts]
      simp
  | .operation first parts => by
      have operand := exists_occurrence_iff inner around first
      have others := exists_occurrenceInAll_iff inner around parts
      simp only [occurrences, List.exists_mem_cons_iff, List.mem_append, or_and_right, exists_or,
        operand, others]
      rw [Node.contains_iff (.operation first parts), eq_comm]
      simp only [Node.parts, List.exists_mem_cons_iff]
  | .item kind attributes parts => by
      have within :=
        exists_occurrenceInAll_iff inner (around.within kind attributes) parts
      rw [occurrences, List.exists_mem_cons_iff, within, Node.contains_iff, eq_comm]
      rfl
  | .group parts => by
      have within := exists_occurrenceInAll_iff inner around parts
      rw [occurrences, List.exists_mem_cons_iff, within, Node.contains_iff, eq_comm]
      rfl
  | .unread => by
      rw [occurrences, List.exists_mem_cons_iff, Node.contains_iff, eq_comm, Node.parts]
      simp

theorem exists_occurrenceInAll_iff (inner : Node W) (around : Surroundings W) :
    (nodes : List (Node W)) →
    ((∃ o ∈ occurrencesInAll around nodes, o.node = inner) ↔
      ∃ node ∈ nodes, node.Contains inner)
  | [] => by simp [occurrencesInAll]
  | node :: rest => by
      have first := exists_occurrence_iff inner around node
      have others := exists_occurrenceInAll_iff inner around rest
      simp only [occurrencesInAll, List.mem_append, or_and_right, exists_or, first, others,
        List.exists_mem_cons_iff]

end

/-- A node defines a function when it is an item of that kind. -/
theorem Occurrence.exists_definition_iff {o : Occurrence W} {name : Word W}
    {visible isMethod : Bool} :
    (∃ d, o.definition? = some d ∧ d.name = name ∧ d.visible = visible ∧ d.isMethod = isMethod) ↔
      ∃ attributes parts, o.node = .item
        (if isMethod then .method name visible else .function name visible) attributes parts := by
  constructor
  · rintro ⟨d, defined, rfl, rfl, rfl⟩
    unfold definition? at defined
    split at defined
    · obtain rfl := Option.some.inj defined
      exact ⟨_, _, by assumption⟩
    · obtain rfl := Option.some.inj defined
      exact ⟨_, _, by assumption⟩
    · cases defined
  · rintro ⟨attributes, parts, node⟩
    cases isMethod <;> exact ⟨_, by rw [definition?, node]; rfl, rfl, rfl, rfl⟩

/-- The functions that a tree defines are those in it, at any depth. -/
theorem exists_mem_definitions_iff {tree : Tree W} {name : Word W} {visible isMethod : Bool} :
    (∃ d ∈ tree.definitions, d.name = name ∧ d.visible = visible ∧ d.isMethod = isMethod) ↔
      ∃ node ∈ tree.values ++ tree.items, ∃ attributes parts, node.Contains (.item
        (if isMethod then .method name visible else .function name visible) attributes parts) := by
  have inside (inner : Node W) := exists_occurrenceInAll_iff inner {}
    (tree.values ++ tree.items)
  constructor
  · rintro ⟨d, member, rfl, rfl, rfl⟩
    obtain ⟨o, occurs, defined⟩ := List.mem_filterMap.mp member
    obtain ⟨attributes, parts, is⟩ :=
      Occurrence.exists_definition_iff.mp ⟨d, defined, rfl, rfl, rfl⟩
    obtain ⟨node, part, contains⟩ := (inside _).mp ⟨o, occurs, is⟩
    exact ⟨node, part, attributes, parts, contains⟩
  · rintro ⟨node, part, attributes, parts, contains⟩
    obtain ⟨o, occurs, is⟩ := (inside _).mpr ⟨node, part, contains⟩
    obtain ⟨d, defined, named⟩ := Occurrence.exists_definition_iff.mpr ⟨attributes, parts, is⟩
    exact ⟨d, List.mem_filterMap.mpr ⟨o, occurs, defined⟩, named⟩

end SourceLint.Source
