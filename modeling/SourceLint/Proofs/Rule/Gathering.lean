import SourceLint.Proofs.Rule.Relocation
import SourceLint.Proofs.Source.Occurrences

/-! # What a file adds, node by node

The facts of a file are those of the nodes in its tree, one after the other. A node adds what it
says by itself, unless it is in test code or belongs to a path that is called. So what a file
defines and what it uses can be told from the nodes and what is around each.
-/

namespace SourceLint

open Source

namespace Facts

theorem append_nothing (f : Facts) : f ++ {} = f := by
  change Facts.mk _ _ _ = f
  simp only [List.append_nil]

theorem append_assoc (f g h : Facts) : f ++ g ++ h = f ++ (g ++ h) := by
  change Facts.mk _ _ _ = Facts.mk _ _ _
  congr 1 <;> exact List.append_assoc ..

/-- The facts of several parts, one after the other. -/
def join (all : List Facts) : Facts :=
  all.foldr (· ++ ·) {}

theorem join_append (all more : List Facts) : join (all ++ more) = join all ++ join more := by
  induction all with
  | nil => rfl
  | cons f rest ih =>
      change f ++ join (rest ++ more) = f ++ join rest ++ join more
      rw [ih, append_assoc]

theorem symbols_join (all : List Facts) : (join all).symbols = all.flatMap (·.symbols) := by
  induction all with
  | nil => rfl
  | cons f rest ih =>
      rw [List.flatMap_cons, ← ih]
      rfl

theorem mem_uses_join {all : List Facts} {m : Mention} :
    m ∈ (join all).invocations ++ (join all).references ↔
      ∃ f ∈ all, m ∈ f.invocations ++ f.references := by
  induction all with
  | nil => simp [join]
  | cons f rest ih =>
      rw [List.exists_mem_cons_iff, ← ih]
      change m ∈ (f.invocations ++ (join rest).invocations) ++
        (f.references ++ (join rest).references) ↔ _
      simp only [List.mem_append]
      tauto

end Facts

namespace UnusedFunction

variable {W : Name → Prop}

/-! ## What the rule looks at -/

/-- The item is test code by itself. -/
def isTest (e : Enclosure W) : Bool :=
  canBeTest e.kind && isTestCode e.attributes

/-- The rule looks there. -/
def isRead (around : Surroundings W) : Bool :=
  !around.inCallee && !around.items.any isTest

/-- The closest implementation among the items is one of a trait. -/
def implementsTrait : List (Enclosure W) → Bool
  | [] => false
  | ⟨.implementation ofTrait, _⟩ :: _ => ofTrait
  | _ :: items => implementsTrait items

/-- The facts that a node adds to those of its parts. -/
def Scope.own (s : Scope) : Node W → Facts
  | .path name _ | .imported name => s.reference name
  | .call _ (.path name _) _ | .methodCall name _ => s.invocation name
  | .item kind attributes _ => if isTest ⟨kind, attributes⟩ then {} else s.ofKind kind
  | _ => {}

section Gathering

variable (file : Path) (includesPublic : Bool)

/-- The scope of what has that around. -/
def scopeAt (around : Surroundings W) : Scope :=
  ⟨file, includesPublic, implementsTrait around.items⟩

/-- The facts that a node adds where it stands. -/
def factsAt (o : Occurrence W) : Facts :=
  if isRead o.around then (scopeAt file includesPublic o.around).own o.node else {}

/-- The facts that nodes add, one after the other. -/
def gathered (all : List (Occurrence W)) : Facts :=
  Facts.join (all.map (factsAt file includesPublic))

theorem gathered_nil : gathered file includesPublic ([] : List (Occurrence W)) = {} := rfl

theorem gathered_cons (o : Occurrence W) (rest : List (Occurrence W)) :
    gathered file includesPublic (o :: rest) =
      factsAt file includesPublic o ++ gathered file includesPublic rest := rfl

theorem gathered_append (all more : List (Occurrence W)) :
    gathered file includesPublic (all ++ more) =
      gathered file includesPublic all ++ gathered file includesPublic more := by
  rw [gathered, List.map_append, Facts.join_append]
  rfl

theorem isRead_within (around : Surroundings W) (kind : ItemKind W) (attributes : List Attribute) :
    isRead (around.within kind attributes) = (isRead around && !isTest ⟨kind, attributes⟩) := by
  simp only [isRead, Surroundings.within, List.any_cons, Bool.not_or]
  cases around.inCallee <;> cases isTest ⟨kind, attributes⟩ <;> simp

theorem isRead_calling_path (around : Surroundings W) (name : Word W) (parts : List (Node W)) :
    isRead (around.calling (.path name parts)) = false := rfl

theorem calling_of_ne_path {callee : Node W} (other : ∀ name parts, callee ≠ .path name parts)
    (around : Surroundings W) : around.calling callee = around := by
  cases callee with
  | path name parts => exact absurd rfl (other name parts)
  | _ => rfl

theorem scopeAt_within (around : Surroundings W) (kind : ItemKind W)
    (attributes : List Attribute) :
    scopeAt file includesPublic (around.within kind attributes) =
      (scopeAt file includesPublic around).inside kind := by
  cases kind <;> rfl

mutual

/-- What the rule gathers from a node is what the nodes in it add. -/
theorem gathered_occurrences (around : Surroundings W) : (node : Node W) →
    gathered file includesPublic (occurrences around node) =
      if isRead around then facts (scopeAt file includesPublic around) node else {}
  | .path name parts => by
      rw [occurrences, gathered_cons, gathered_occurrencesInAll around parts, factsAt, facts]
      split <;> rfl
  | .call attributes callee arguments => by
      have called := gathered_occurrences (around.calling callee) callee
      have first := gathered_occurrencesInAll (around.calling callee) attributes
      have given := gathered_occurrencesInAll around arguments
      rw [occurrences, gathered_cons, gathered_append, gathered_append, called, first, given,
        factsAt]
      -- The nodes of a path that is called add nothing, as the call alone tells its name.
      rcases callee.exists_path_or_ne with ⟨name, parts, rfl⟩ | other
      · rw [isRead_calling_path, facts]
        split <;> rfl
      · have silent : (scopeAt file includesPublic around).own
            (.call attributes callee arguments) = {} := by
          rw [Scope.own.eq_def]
          cases callee with
          | path name parts => exact absurd rfl (other name parts)
          | _ => rfl
        rw [calling_of_ne_path other, facts_call other, silent]
        split <;> rfl
  | .methodCall name parts => by
      rw [occurrences, gathered_cons, gathered_occurrencesInAll around parts, factsAt, facts]
      split <;> rfl
  | .imported name => by
      rw [occurrences, gathered_cons, gathered_nil, Facts.append_nothing, factsAt, facts]
      rfl
  | .operation first parts => by
      rw [occurrences, gathered_cons, gathered_append, gathered_occurrences around first,
        gathered_occurrencesInAll around parts, factsAt, facts]
      split <;> rfl
  | .item kind attributes parts => by
      rw [occurrences, gathered_cons,
        gathered_occurrencesInAll (around.within kind attributes) parts, isRead_within,
        scopeAt_within, factsAt, facts]
      change _ = if isRead around then
        (if isTest ⟨kind, attributes⟩ then ({} : Facts) else _) else {}
      cases isRead around with
      | false => rfl
      | true =>
          rw [if_pos rfl, if_pos rfl, Scope.own]
          cases isTest ⟨kind, attributes⟩ <;> rfl
  | .group parts => by
      rw [occurrences, gathered_cons, gathered_occurrencesInAll around parts, factsAt, facts]
      split <;> rfl
  | .unread => by
      rw [occurrences, gathered_cons, gathered_nil, factsAt, facts]
      split <;> rfl

theorem gathered_occurrencesInAll (around : Surroundings W) : (nodes : List (Node W)) →
    gathered file includesPublic (occurrencesInAll around nodes) =
      if isRead around then factsOfAll (scopeAt file includesPublic around) nodes else {}
  | [] => by
      rw [occurrencesInAll, gathered_nil, factsOfAll]
      split <;> rfl
  | node :: rest => by
      rw [occurrencesInAll, gathered_append, gathered_occurrences around node,
        gathered_occurrencesInAll around rest, factsOfAll]
      split <;> rfl

end

end Gathering

/-- What a file adds is what its nodes add. -/
theorem factsOfFile_eq_gathered (config : Config) {file : SourceFile} (looked : file.isTest = false)
    (tree : Tree W) :
    factsOfFile config file tree = gathered file.path config.includesPublic tree.occurrences := by
  rw [Tree.occurrences, gathered_occurrencesInAll, factsOfFile, looked]
  rfl

/-! ## What a file defines -/

/-- The function is one that counts as defined. -/
structure Counts (includesPublic : Bool) (d : Definition W) : Prop where
  /-- Neither itself nor anything around it is test code. -/
  outside : ∀ e ∈ d.around.items, isTest e = false
  named : d.name.text ≠ "main"
  shown : d.visible = true → includesPublic = true
  /-- The implementation that it belongs to is not one of a trait. -/
  inherent : d.isMethod = true → implementsTrait d.around.items = false

instance (includesPublic : Bool) (d : Definition W) : Decidable (Counts includesPublic d) :=
  decidable_of_iff ((∀ e ∈ d.around.items, isTest e = false) ∧ d.name.text ≠ "main" ∧
      (d.visible = true → includesPublic = true) ∧
      (d.isMethod = true → implementsTrait d.around.items = false))
    ⟨fun ⟨outside, named, shown, inherent⟩ => ⟨outside, named, shown, inherent⟩,
      fun ⟨outside, named, shown, inherent⟩ => ⟨outside, named, shown, inherent⟩⟩

/-- The function is recorded: it counts, and no path that is called has it among its parts. -/
def isRecorded (includesPublic : Bool) (d : Definition W) : Bool :=
  decide (Counts includesPublic d) && !d.around.inCallee

/-- A word of a file, where it stands. -/
def mentionIn (file : Path) (name : Word W) : Mention :=
  ⟨name.text, ⟨file, name.position.line, name.position.column⟩⟩

theorem isRecorded_iff {includesPublic : Bool} {d : Definition W} :
    isRecorded includesPublic d = true ↔ isRead d.around = true ∧ d.name.text ≠ "main" ∧
      (d.visible = true → includesPublic = true) ∧
      (d.isMethod = true → implementsTrait d.around.items = false) := by
  have clear : (!d.around.items.any isTest) = true ↔ ∀ e ∈ d.around.items, isTest e = false := by
    simp
  rw [isRecorded, isRead, Bool.and_eq_true, Bool.and_eq_true, clear, decide_eq_true_iff]
  constructor
  · rintro ⟨⟨outside, named, shown, inherent⟩, reached⟩
    exact ⟨⟨reached, outside⟩, named, shown, inherent⟩
  · rintro ⟨⟨reached, outside⟩, named, shown, inherent⟩
    exact ⟨⟨outside, named, shown, inherent⟩, reached⟩

section Facts

variable {file : Path} {includesPublic : Bool}

theorem symbols_definition (s : Scope) (name : Word W) (visible : Bool) :
    (s.definition name visible).symbols =
      if name.text ≠ "main" ∧ (visible = true → s.includesPublic = true) then
        [mentionIn s.file name] else [] := by
  rw [Scope.definition]
  split <;> rename_i left
  · rw [if_neg (by tauto)]
  · rw [if_pos (by tauto)]
    rfl

theorem symbols_method (s : Scope) (name : Word W) (visible : Bool) :
    (s.ofKind (.method name visible)).symbols =
      if name.text ≠ "main" ∧ (visible = true → s.includesPublic = true) ∧
          s.inTraitImplementation = false then
        [mentionIn s.file name] else [] := by
  rw [Scope.ofKind]
  cases s.inTraitImplementation with
  | true => simp
  | false => simpa using symbols_definition s name visible

theorem factsAt_item (around : Surroundings W) (kind : ItemKind W) (attributes : List Attribute)
    (parts : List (Node W)) :
    factsAt file includesPublic ⟨around, .item kind attributes parts⟩ =
      if isRead (around.within kind attributes) then
        (scopeAt file includesPublic around).ofKind kind
      else {} := by
  rw [factsAt, isRead_within, Scope.own]
  cases isRead around <;> cases isTest ⟨kind, attributes⟩ <;> rfl

/-- An item records a function if that is to be recorded, where what it says by itself is right. -/
theorem symbols_factsAt_item {around : Surroundings W} {kind : ItemKind W}
    {attributes : List Attribute} {parts : List (Node W)} {d : Definition W}
    (here : d.around = around.within kind attributes)
    (own : ((scopeAt file includesPublic around).ofKind kind).symbols =
      if d.name.text ≠ "main" ∧ (d.visible = true → includesPublic = true) ∧
          (d.isMethod = true → implementsTrait d.around.items = false) then
        [mentionIn file d.name] else []) :
    (factsAt file includesPublic ⟨around, .item kind attributes parts⟩).symbols =
      ([d].filter (isRecorded includesPublic)).map (mentionIn file ·.name) := by
  rw [factsAt_item, ← here]
  by_cases recorded : isRecorded includesPublic d = true
  · obtain ⟨read, counts⟩ := isRecorded_iff.mp recorded
    rw [if_pos read, own, if_pos counts, List.filter_cons_of_pos recorded]
    rfl
  · rw [List.filter_cons_of_neg recorded]
    split <;> rename_i read
    · rw [own, if_neg fun counts => recorded (isRecorded_iff.mpr ⟨read, counts⟩)]
      rfl
    · rfl

/-- A node records the function that it defines, if that is to be recorded. -/
theorem symbols_factsAt (o : Occurrence W) : (factsAt file includesPublic o).symbols =
    (o.definition?.toList.filter (isRecorded includesPublic)).map (mentionIn file ·.name) := by
  have silent (around : Surroundings W) (node : Node W) (quiet : ∀ s : Scope,
      (s.own node).symbols = []) : (factsAt file includesPublic ⟨around, node⟩).symbols = [] := by
    rw [factsAt]
    split
    · exact quiet _
    · rfl
  obtain ⟨around, node⟩ := o
  cases node with
  | item kind attributes parts =>
      cases kind with
      | function name visible =>
          refine symbols_factsAt_item rfl ?_
          rw [Scope.ofKind, symbols_definition]
          exact if_congr (by simp [scopeAt]) rfl rfl
      | method name visible =>
          refine symbols_factsAt_item rfl ?_
          rw [symbols_method]
          exact if_congr (by simp [scopeAt, Surroundings.within, implementsTrait]) rfl rfl
      | _ =>
          rw [factsAt_item]
          split <;> rfl
  | call attributes callee arguments =>
      refine silent around _ fun s => ?_
      cases callee <;> rfl
  | _ => exact silent around _ fun s => rfl

/-- Items use nothing by themselves. -/
theorem uses_ofKind (s : Scope) (kind : ItemKind W) :
    (s.ofKind kind).invocations ++ (s.ofKind kind).references = [] := by
  have definition (name : Word W) (visible : Bool) : (s.definition name visible).invocations ++
      (s.definition name visible).references = [] := by
    rw [Scope.definition]
    split <;> rfl
  cases kind with
  | function name visible => exact definition name visible
  | method name visible =>
      rw [Scope.ofKind]
      split
      · rfl
      · exact definition name visible
  | _ => rfl

theorem uses_own (s : Scope) (node : Node W) :
    (s.own node).invocations ++ (s.own node).references = node.uses.map (mentionIn s.file) := by
  cases node with
  | call attributes callee arguments => cases callee <;> rfl
  | item kind attributes parts =>
      rw [Scope.own]
      split
      · rfl
      · exact uses_ofKind s kind
  | _ => rfl

/-- A node uses the names that it does, where the rule looks. -/
theorem mem_uses_factsAt {o : Occurrence W} {m : Mention} :
    m ∈ (factsAt file includesPublic o).invocations ++ (factsAt file includesPublic o).references ↔
      isRead o.around = true ∧ ∃ name ∈ o.node.uses, mentionIn file name = m := by
  rw [factsAt]
  split <;> rename_i read
  · rw [uses_own, List.mem_map]
    exact (and_iff_right read).symm
  · exact iff_of_false List.not_mem_nil fun found => read found.1

end Facts

section File

variable (config : Config) {file : SourceFile} (tree : Tree W)

theorem facts_check (file : SourceFile) :
    (rule.check config file tree).facts = factsOfFile config file tree := rfl

/-- A file records the functions that are to be recorded, each where its name stands, in the order
of its nodes. -/
theorem symbols_factsOfFile (looked : file.isTest = false) :
    (factsOfFile config file tree).symbols =
      (tree.definitions.filter (isRecorded config.includesPublic)).map
        (mentionIn file.path ·.name) := by
  rw [factsOfFile_eq_gathered config looked, gathered, Facts.symbols_join, List.flatMap_map,
    Tree.definitions]
  induction tree.occurrences with
  | nil => rfl
  | cons o rest ih =>
      rw [List.flatMap_cons, ih, symbols_factsAt, ← List.map_append, ← List.filter_append]
      cases defined : o.definition? with
      | none => rw [List.filterMap_cons_none defined, Option.toList_none, List.nil_append]
      | some d => rw [List.filterMap_cons_some defined, Option.toList_some, List.singleton_append]

/-- A file uses the names that its nodes do where the rule looks. -/
theorem mem_uses_factsOfFile (looked : file.isTest = false) {m : Mention} :
    m ∈ (factsOfFile config file tree).invocations ++ (factsOfFile config file tree).references ↔
      ∃ o ∈ tree.occurrences, isRead o.around = true ∧
        ∃ name ∈ o.node.uses, mentionIn file.path name = m := by
  rw [factsOfFile_eq_gathered config looked, gathered, Facts.mem_uses_join]
  simp only [List.mem_map, exists_exists_and_eq_and, mem_uses_factsAt]

end File

end UnusedFunction

end SourceLint
