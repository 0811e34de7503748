import SourceLint.Proofs.Rule.Gathering

/-! # Trees without their test code

Test code can be cut out of a tree. What is left defines the functions that were outside of it, and
adds the same facts to the bank as before: for the rule, test code is not there.
-/

namespace SourceLint.UnusedFunction

open Source

variable {W : Name → Prop}

mutual

/-- The node with nothing in place of the test code in it. -/
def withoutTests : Node W → Node W
  | .path name parts => .path name (withoutTestsInAll parts)
  | .call attributes callee arguments =>
    .call (withoutTestsInAll attributes) (withoutTests callee) (withoutTestsInAll arguments)
  | .methodCall name parts => .methodCall name (withoutTestsInAll parts)
  | .imported name => .imported name
  | .operation first parts => .operation (withoutTests first) (withoutTestsInAll parts)
  | .item kind attributes parts =>
    if isTest ⟨kind, attributes⟩ then .group [] else .item kind attributes (withoutTestsInAll parts)
  | .group parts => .group (withoutTestsInAll parts)
  | .unread => .unread

def withoutTestsInAll : List (Node W) → List (Node W)
  | [] => []
  | node :: nodes => withoutTests node :: withoutTestsInAll nodes

end

/-- The tree with nothing in place of the test code in it. -/
def treeWithoutTests (tree : Tree W) : Tree W :=
  { tree with values := withoutTestsInAll tree.values, items := withoutTestsInAll tree.items }

/-- The function is in no test code. -/
def isOutside (d : Definition W) : Bool :=
  !d.around.items.any isTest

theorem withoutTestsInAll_append (nodes more : List (Node W)) :
    withoutTestsInAll (nodes ++ more) = withoutTestsInAll nodes ++ withoutTestsInAll more := by
  induction nodes with
  | nil => rfl
  | cons node rest ih =>
      change withoutTests node :: withoutTestsInAll (rest ++ more) = _
      rw [ih]
      rfl

/-- Nothing becomes a path. -/
theorem withoutTests_ne_path {node : Node W} (other : ∀ name parts, node ≠ .path name parts) :
    ∀ name parts, withoutTests node ≠ .path name parts := by
  cases node with
  | path name parts => exact absurd rfl (other name parts)
  | item kind attributes parts =>
      rw [withoutTests]
      split <;> nofun
  | _ => simp [withoutTests]

/-! ## The same facts -/

mutual

theorem facts_withoutTests (s : Scope) : (node : Node W) → facts s (withoutTests node) = facts s node
  | .path name parts => by
      rw [withoutTests, facts, facts, factsOfAll_withoutTestsInAll s parts]
  | .call attributes callee arguments => by
      have first := factsOfAll_withoutTestsInAll s attributes
      have called := facts_withoutTests s callee
      have given := factsOfAll_withoutTestsInAll s arguments
      rw [withoutTests]
      rcases callee.exists_path_or_ne with ⟨name, parts, rfl⟩ | other
      · rw [withoutTests, facts, facts, given]
      · rw [facts_call (withoutTests_ne_path other), facts_call other, first, called, given]
  | .methodCall name parts => by
      rw [withoutTests, facts, facts, factsOfAll_withoutTestsInAll s parts]
  | .imported name => by rw [withoutTests]
  | .operation first parts => by
      rw [withoutTests, facts, facts, facts_withoutTests s first,
        factsOfAll_withoutTestsInAll s parts]
  | .item kind attributes parts => by
      have within := factsOfAll_withoutTestsInAll (s.inside kind) parts
      rw [withoutTests]
      split <;> rename_i test
      · rw [facts, facts]
        exact (if_pos test).symm
      · rw [facts, facts, within]
  | .group parts => by
      rw [withoutTests, facts, facts, factsOfAll_withoutTestsInAll s parts]
  | .unread => by rw [withoutTests]

theorem factsOfAll_withoutTestsInAll (s : Scope) : (nodes : List (Node W)) →
    factsOfAll s (withoutTestsInAll nodes) = factsOfAll s nodes
  | [] => by rw [withoutTestsInAll]
  | node :: rest => by
      rw [withoutTestsInAll, factsOfAll, factsOfAll, facts_withoutTests s node,
        factsOfAll_withoutTestsInAll s rest]

end

/-- A file adds the same facts without its test code. -/
theorem factsOfFile_treeWithoutTests (config : Config) (file : SourceFile) (tree : Tree W) :
    factsOfFile config file (treeWithoutTests tree) = factsOfFile config file tree := by
  rw [factsOfFile, factsOfFile, treeWithoutTests, ← withoutTestsInAll_append,
    factsOfAll_withoutTestsInAll]

/-! ## What is left -/

/-- The functions defined in a part of a tree. -/
def definitionsAmong (all : List (Occurrence W)) : List (Definition W) :=
  all.filterMap Occurrence.definition?

theorem definitionsAmong_cons (o : Occurrence W) (rest : List (Occurrence W)) :
    definitionsAmong (o :: rest) = o.definition?.toList ++ definitionsAmong rest := by
  rw [definitionsAmong, List.filterMap_cons]
  cases o.definition? <;> rfl

theorem definitionsAmong_append (all more : List (Occurrence W)) :
    definitionsAmong (all ++ more) = definitionsAmong all ++ definitionsAmong more :=
  List.filterMap_append

theorem calling_withoutTests (around : Surroundings W) (callee : Node W) :
    around.calling (withoutTests callee) = around.calling callee := by
  rcases callee.exists_path_or_ne with ⟨name, parts, rfl⟩ | other
  · rw [withoutTests]
    rfl
  · rw [calling_of_ne_path other, calling_of_ne_path (withoutTests_ne_path other)]

theorem items_calling (around : Surroundings W) (callee : Node W) :
    (around.calling callee).items = around.items := by
  cases callee <;> rfl

/-- Which function an item defines does not depend on its parts. -/
theorem definition?_item (around : Surroundings W) (kind : ItemKind W) (attributes : List Attribute)
    (parts parts' : List (Node W)) :
    Occurrence.definition? ⟨around, .item kind attributes parts⟩ =
      Occurrence.definition? ⟨around, .item kind attributes parts'⟩ := by
  cases kind <;> rfl

/-- An item defines a function of its own where it is neither test code nor in any. -/
theorem filter_definition?_item (around : Surroundings W) (kind : ItemKind W)
    (attributes : List Attribute) (parts : List (Node W)) :
    (Occurrence.definition? ⟨around, .item kind attributes parts⟩).toList.filter isOutside =
      if isTest ⟨kind, attributes⟩ || around.items.any isTest then []
      else (Occurrence.definition? ⟨around, .item kind attributes parts⟩).toList := by
  have one (d : Definition W) (here : d.around = around.within kind attributes) :
      [d].filter isOutside =
        if isTest ⟨kind, attributes⟩ || around.items.any isTest then [] else [d] := by
    rw [List.filter_singleton, isOutside, here, Surroundings.within, List.any_cons]
    cases isTest ⟨kind, attributes⟩ || around.items.any isTest <;> rfl
  cases kind with
  | function name visible => exact one _ rfl
  | method name visible => exact one _ rfl
  | _ => exact (ite_self []).symm

mutual

/-- The functions in a node that are outside of test code are those that are left. In test code
there are none. -/
theorem definitions_withoutTests (around : Surroundings W) : (node : Node W) →
    (definitionsAmong (occurrences around node)).filter isOutside =
      if around.items.any isTest then []
      else definitionsAmong (occurrences around (withoutTests node))
  | .path name parts => by
      rw [occurrences, withoutTests, occurrences]
      exact definitions_withoutTestsInAll around parts
  | .call attributes callee arguments => by
      have first := definitions_withoutTestsInAll (around.calling callee) attributes
      have called := definitions_withoutTests (around.calling callee) callee
      have given := definitions_withoutTestsInAll around arguments
      rw [items_calling] at first called
      rw [occurrences, withoutTests, occurrences, calling_withoutTests, definitionsAmong_cons,
        definitionsAmong_cons, definitionsAmong_append, definitionsAmong_append,
        definitionsAmong_append, definitionsAmong_append, List.filter_append, List.filter_append,
        List.filter_append, first, called, given]
      split <;> rfl
  | .methodCall name parts => by
      rw [occurrences, withoutTests, occurrences]
      exact definitions_withoutTestsInAll around parts
  | .imported name => by
      rw [occurrences, withoutTests, occurrences]
      exact (ite_self []).symm
  | .operation first parts => by
      have operand := definitions_withoutTests around first
      have others := definitions_withoutTestsInAll around parts
      rw [occurrences, withoutTests, occurrences, definitionsAmong_cons, definitionsAmong_cons,
        definitionsAmong_append, definitionsAmong_append, List.filter_append, List.filter_append,
        operand, others]
      split <;> rfl
  | .item kind attributes parts => by
      have within := definitions_withoutTestsInAll (around.within kind attributes) parts
      have own := filter_definition?_item around kind attributes parts
      rw [Surroundings.within, List.any_cons, ← Surroundings.within] at within
      rw [occurrences, definitionsAmong_cons, List.filter_append, own, within, withoutTests]
      -- Test code goes with all that is in it; any other item stays, with what stays in it.
      cases isTest ⟨kind, attributes⟩ with
      | true =>
          change [] = if around.items.any isTest then [] else definitionsAmong []
          exact (ite_self []).symm
      | false =>
          change _ = if around.items.any isTest then [] else
            definitionsAmong (occurrences around (.item kind attributes (withoutTestsInAll parts)))
          rw [occurrences, definitionsAmong_cons, Bool.false_or,
            definition?_item around kind attributes (withoutTestsInAll parts) parts]
          split <;> rfl
  | .group parts => by
      rw [occurrences, withoutTests, occurrences]
      exact definitions_withoutTestsInAll around parts
  | .unread => by
      rw [occurrences, withoutTests, occurrences]
      exact (ite_self []).symm

theorem definitions_withoutTestsInAll (around : Surroundings W) : (nodes : List (Node W)) →
    (definitionsAmong (occurrencesInAll around nodes)).filter isOutside =
      if around.items.any isTest then []
      else definitionsAmong (occurrencesInAll around (withoutTestsInAll nodes))
  | [] => by
      rw [withoutTestsInAll, occurrencesInAll]
      exact (ite_self []).symm
  | node :: rest => by
      rw [withoutTestsInAll, occurrencesInAll, occurrencesInAll, definitionsAmong_append,
        definitionsAmong_append, List.filter_append, definitions_withoutTests around node,
        definitions_withoutTestsInAll around rest]
      split <;> rfl

end

/-- Without its test code, a tree defines the functions that are outside of it. -/
theorem definitions_treeWithoutTests (tree : Tree W) :
    (treeWithoutTests tree).definitions = tree.definitions.filter isOutside := by
  have left := definitions_withoutTestsInAll {} (tree.values ++ tree.items)
  rw [withoutTestsInAll_append] at left
  exact left.symm

end SourceLint.UnusedFunction
