import SourceLint.Proofs.Rule.Gathering
import SourceLint.Proofs.Source.Places

/-! # Which definitions a file records

A visitor of the whole tree could know by a flag whether it is in an implementation of a trait, and
would have to put the flag back after each implementation. It gathers what the rule does, and the
flag is as before after every node. What is recorded are the functions that count, each where its
name stands; only those among the parts of a path that is called get lost.
-/

namespace SourceLint.UnusedFunction

open Source

variable {W : Name → Prop}

/-! ## A visitor with a flag -/

/-- What a visitor holds. -/
structure Collector where
  facts : Facts := {}
  /-- The implementation that is visited is one of a trait. -/
  inTraitImplementation : Bool := false

namespace Collector

/-- Puts facts after those there are. -/
def record (facts : Facts) : StateM Collector Unit :=
  modify fun c => { c with facts := c.facts ++ facts }

section Visiting

variable (file : Path) (includesPublic : Bool)

/-- Records a function, unless that counts as used or is not looked for. -/
def define (name : Word W) (visible : Bool) : StateM Collector Unit := do
  if name.text = "main" then return
  if !includesPublic && visible then return
  record { symbols := [mentionIn file name] }

mutual

/-- Visits a node and all that is in it. -/
def visit : Node W → StateM Collector Unit
  | .path name parts => do
    record { references := [mentionIn file name] }
    visitAll parts
  | .call _ (.path name _) arguments => do
    record { invocations := [mentionIn file name] }
    visitAll arguments
  | .call attributes callee arguments => do
    visitAll attributes
    visit callee
    visitAll arguments
  | .methodCall name parts => do
    record { invocations := [mentionIn file name] }
    visitAll parts
  | .imported name => record { references := [mentionIn file name] }
  | .operation first parts => do
    visit first
    visitAll parts
  | .item .module attributes parts => do
    if isTestCode attributes then return
    visitAll parts
  | .item (.function name visible) attributes parts => do
    if isTestCode attributes then return
    define file includesPublic name visible
    visitAll parts
  | .item (.implementation ofTrait) attributes parts => do
    if isTestCode attributes then return
    let before := (← get).inTraitImplementation
    modify ({ · with inTraitImplementation := ofTrait })
    visitAll parts
    modify ({ · with inTraitImplementation := before })
  | .item (.method name visible) attributes parts => do
    if isTestCode attributes then return
    if !(← get).inTraitImplementation then define file includesPublic name visible
    visitAll parts
  | .item .other _ parts => visitAll parts
  | .group parts => visitAll parts
  | .unread => return

/-- Visits nodes, one after the other. -/
def visitAll : List (Node W) → StateM Collector Unit
  | [] => return
  | node :: nodes => do
    visit node
    visitAll nodes

end

/-- The collector with more facts, and the flag as it is. -/
def gathering (c : Collector) (facts : Facts) : Collector :=
  { c with facts := c.facts ++ facts }

/-- The scope that the flag stands for. -/
def scope (c : Collector) : Scope :=
  ⟨file, includesPublic, c.inTraitImplementation⟩

theorem gathering_nothing (c : Collector) : c.gathering {} = c := by
  rw [gathering, Facts.append_nothing]

theorem gathering_append (c : Collector) (f g : Facts) :
    c.gathering (f ++ g) = (c.gathering f).gathering g := by
  simp only [gathering, Facts.append_assoc]

theorem run_seq (first second : StateM Collector Unit) (c : Collector) :
    (do first; second).run c = second.run (first.run c).2 := rfl

theorem run_define (name : Word W) (visible : Bool) (c : Collector) :
    (define file includesPublic name visible).run c =
      ((), c.gathering ((c.scope file includesPublic).definition name visible)) := by
  rw [define, Scope.definition]
  by_cases main : name.text = "main"
  · rw [if_pos main, if_pos (.inl main), gathering_nothing]
    rfl
  · rw [if_neg main]
    by_cases hidden : (!includesPublic && visible) = true
    · have unseen : visible = true ∧ ¬ includesPublic = true := by simpa [and_comm] using hidden
      rw [if_pos hidden, if_pos (.inr unseen), gathering_nothing]
      rfl
    · have seen : ¬ (name.text = "main" ∨
          visible = true ∧ ¬ (c.scope file includesPublic).includesPublic = true) := by
        simpa [main, scope, and_comm] using hidden
      rw [if_neg hidden, if_neg seen]
      rfl

/-- A visit that test code is spared adds the facts of an item, where it adds those of all others. -/
theorem run_gated {c : Collector} {kind : ItemKind W} {attributes : List Attribute}
    {parts : List (Node W)} {rest : StateM Collector Unit} (can : canBeTest kind = true)
    (adds : rest.run c = ((), c.gathering ((c.scope file includesPublic).ofKind kind ++
      factsOfAll ((c.scope file includesPublic).inside kind) parts))) :
    (if isTestCode attributes = true then pure () else rest : StateM Collector Unit).run c =
      ((), c.gathering (UnusedFunction.facts (c.scope file includesPublic)
        (.item kind attributes parts))) := by
  rw [UnusedFunction.facts, can]
  cases isTestCode attributes with
  | true =>
      change ((), c) = ((), c.gathering {})
      rw [gathering_nothing]
  | false => exact adds

mutual

/-- A node adds its facts, and leaves the flag as it was. -/
theorem run_visit (c : Collector) : (node : Node W) → (visit file includesPublic node).run c =
    ((), c.gathering (UnusedFunction.facts (c.scope file includesPublic) node))
  | .path name parts => by
      rw [visit, run_seq, run_visitAll, UnusedFunction.facts, gathering_append]
      rfl
  | .call attributes callee arguments => by
      rcases callee.exists_path_or_ne with ⟨name, parts, rfl⟩ | other
      · rw [visit, run_seq, run_visitAll, UnusedFunction.facts, gathering_append]
        rfl
      · rw [visit, run_seq, run_seq, run_visitAll, run_visit, run_visitAll, facts_call other,
          gathering_append, gathering_append]
        · rfl
        · exact other
  | .methodCall name parts => by
      rw [visit, run_seq, run_visitAll, UnusedFunction.facts, gathering_append]
      rfl
  | .imported name => by
      rw [visit, UnusedFunction.facts]
      rfl
  | .operation first parts => by
      rw [visit, run_seq, run_visitAll, run_visit, UnusedFunction.facts, gathering_append]
      rfl
  | .item .module attributes parts => by
      rw [visit]
      refine run_gated file includesPublic rfl ?_
      rw [run_visitAll]
      rfl
  | .item (.function name visible) attributes parts => by
      rw [visit]
      refine run_gated file includesPublic rfl ?_
      rw [run_seq, run_define, run_visitAll, gathering_append]
      rfl
  | .item (.implementation ofTrait) attributes parts => by
      rw [visit]
      refine run_gated file includesPublic rfl ?_
      -- The parts are visited with the flag of this implementation, and leave that as it is.
      have within := run_visitAll { c with inTraitImplementation := ofTrait } parts
      change ((), { ((visitAll file includesPublic parts).run
        { c with inTraitImplementation := ofTrait }).2 with
          inTraitImplementation := c.inTraitImplementation }) = _
      rw [within]
      rfl
  | .item (.method name visible) attributes parts => by
      rw [visit]
      refine run_gated file includesPublic rfl ?_
      -- Of an implementation of a trait nothing is defined; either way the parts are visited.
      obtain ⟨before, flag⟩ := c
      cases flag with
      | true =>
          change (visitAll file includesPublic parts).run _ = _
          rw [run_visitAll]
          rfl
      | false =>
          change (do define file includesPublic name visible
                     visitAll file includesPublic parts).run _ = _
          rw [run_seq, run_define, run_visitAll, gathering_append]
          rfl
  | .item .other attributes parts => by
      rw [visit, run_visitAll]
      rfl
  | .group parts => by
      rw [visit, run_visitAll, UnusedFunction.facts]
  | .unread => by
      rw [visit, UnusedFunction.facts, gathering_nothing]
      rfl

theorem run_visitAll (c : Collector) : (nodes : List (Node W)) →
    (visitAll file includesPublic nodes).run c =
      ((), c.gathering (factsOfAll (c.scope file includesPublic) nodes))
  | [] => by
      rw [visitAll, factsOfAll, gathering_nothing]
      rfl
  | node :: rest => by
      rw [visitAll, run_seq, run_visit c node, run_visitAll, factsOfAll, gathering_append]
      rfl

end

end Visiting

end Collector

/-! ## What is recorded -/

/-- What is recorded of a file that parses. -/
structure RecordsDefinitions (config : Config) (file : SourceFile)
    (tree : Tree (IsWordOf (contentOf file.content))) : Prop where
  /-- They are the functions that count, in the order of the nodes, except those among the parts of
  a path that is called. Files of tests have none. -/
  symbols : (rule.check config file tree).facts.symbols =
    if file.isTest then [] else
      (tree.definitions.filter fun d =>
        decide (Counts config.includesPublic d) && !d.around.inCallee).map
          (mentionIn file.path ·.name)
  /-- The definitions of a tree are the functions in it, at any depth. -/
  found : ∀ name visible isMethod,
    (∃ d ∈ tree.definitions, d.name = name ∧ d.visible = visible ∧ d.isMethod = isMethod) ↔
      ∃ node ∈ tree.values ++ tree.items, ∃ attributes parts, node.Contains (.item
        (if isMethod then .method name visible else .function name visible) attributes parts)
  /-- Each is at the place where its name stands. -/
  placed : ∀ d ∈ tree.definitions, StandsIn (withoutMark file.content.toList) d.name.toName
  /-- A visitor with a flag finds the same. -/
  visited : file.isTest = false → (rule.check config file tree).facts =
    ((Collector.visitAll file.path config.includesPublic (tree.values ++ tree.items)).run {}).2.facts
  /-- The flag is as before after any node. -/
  restored : ∀ (node : Node (IsWordOf (contentOf file.content))) (c : Collector),
    ((Collector.visit file.path config.includesPublic node).run c).2.inTraitImplementation =
      c.inTraitImplementation

theorem check_recordsDefinitions (config : Config) (file : SourceFile)
    (tree : Tree (IsWordOf (contentOf file.content))) : RecordsDefinitions config file tree where
  symbols := by
    rw [facts_check]
    cases looked : file.isTest with
    | true =>
        rw [factsOfFile, looked]
        rfl
    | false => exact symbols_factsOfFile config tree looked
  found _ _ _ := exists_mem_definitions_iff
  placed d _ := standsIn_of_isWordOf_contentOf d.name.holds
  visited looked := by
    rw [facts_check, Collector.run_visitAll, factsOfFile, looked]
    rfl
  restored node c := by
    rw [Collector.run_visit]
    rfl

/-- An implementation in a function of an implementation of a trait. -/
def nestedImplementation : SourceFile :=
  ⟨⟨"src/a.rs"⟩, "impl T for S \x7b fn a() \x7b impl S \x7b fn b() \x7b\x7d \x7d \x7d fn c() \x7b\x7d \x7d",
    ⟨"src/a.rs"⟩⟩

/-- A function is recorded by what its own implementation is, whatever has been visited in the
functions before it. -/
theorem check_nestedImplementation :
    ∃ tree, parse? nestedImplementation.content = some tree ∧
      RecordsDefinitions {} nestedImplementation tree ∧
      (rule.check {} nestedImplementation tree).facts.symbols =
        [⟨"b", ⟨⟨"src/a.rs"⟩, 1, 37⟩⟩] := by
  have reads : (parse? nestedImplementation.content).map (fun tree =>
      (rule.check {} nestedImplementation tree).facts.symbols) =
        some [⟨"b", ⟨⟨"src/a.rs"⟩, 1, 37⟩⟩] := by
    decide +kernel
  obtain ⟨tree, parses, symbols⟩ := Option.map_eq_some_iff.mp reads
  exact ⟨tree, parses, check_recordsDefinitions {} nestedImplementation tree, symbols⟩

/-- The type in a call has a block that defines a function. -/
def calledBlock : SourceFile :=
  ⟨⟨"src/a.rs"⟩, "fn main() \x7b f::<\x7b fn dead() \x7b\x7d 0 \x7d>(); \x7d", ⟨"src/a.rs"⟩⟩

/-- The function counts, and yet it is not recorded. -/
theorem check_calledBlock : calledBlock.isTest = false ∧
    ∃ tree, parse? calledBlock.content = some tree ∧
      (tree.definitions.filter fun d => decide (Counts false d)).map
        (mentionIn calledBlock.path ·.name) = [⟨"dead", ⟨⟨"src/a.rs"⟩, 1, 22⟩⟩] ∧
      (rule.check {} calledBlock tree).facts.symbols = [] := by
  have parses : (parse? calledBlock.content).map (fun tree =>
      ((tree.definitions.filter fun d => decide (Counts false d)).map
        (mentionIn calledBlock.path ·.name), (factsOfFile {} calledBlock tree).symbols)) =
      some ([⟨"dead", ⟨⟨"src/a.rs"⟩, 1, 22⟩⟩], []) := by
    decide +kernel
  obtain ⟨tree, parses, found⟩ := Option.map_eq_some_iff.mp parses
  obtain ⟨counted, recorded⟩ := Prod.mk.inj found
  exact ⟨by decide +kernel, tree, parses, counted, recorded⟩

end SourceLint.UnusedFunction
