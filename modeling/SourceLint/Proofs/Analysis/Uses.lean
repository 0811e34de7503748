import SourceLint.Proofs.Analysis.Completeness
import SourceLint.Proofs.Rule.Gathering
import SourceLint.Proofs.Rule.Reporting

/-! # Every use keeps a function alive

The files of a project put their facts into one bank, in any order. A function is reported at the
end when it has been recorded, no exclude matches its name and nothing uses the name where the rule
looks. So a use in any file, at any depth, keeps all functions of that name, except where it is part
of a path that is called: there the rule does not look.
-/

namespace SourceLint

open Source

/-- The file holds tests. -/
def Parsed.isTest (root : Path) (f : Parsed) : Bool :=
  (SourceFile.under root f.path f.content).isTest

namespace UnusedFunction

/-- The files have put these batches into the bank, in some order. -/
def Fills (config : Config) (root : Path) (files : List Parsed) (batches : List Batch) : Prop :=
  batches.Perm (files.flatMap fun f => (f.checkedBy config root rule).facts.batches)

/-- What may be reported of these files, in whatever order they are looked at and the bank gives
what it holds. -/
def MayReport (config : Config) (root : Path) (files : List Parsed) (found : List Violation) :
    Prop :=
  ∃ batches, Fills config root files batches ∧ Reports config (filled batches) found

/-- The place has a function of one of the files that is recorded. -/
def IsRecorded (config : Config) (root : Path) (files : List Parsed) (m : Mention) : Prop :=
  ∃ f ∈ files, f.isTest root = false ∧ ∃ d ∈ f.syntaxTree.definitions,
    isRecorded config.includesPublic d = true ∧ mentionIn f.path d.name = m

/-- A node of one of the files uses the name, where the rule looks. -/
def IsUsed (root : Path) (files : List Parsed) (name : String) : Prop :=
  ∃ f ∈ files, f.isTest root = false ∧ ∃ o ∈ f.syntaxTree.occurrences, isRead o.around = true ∧
    ∃ w ∈ o.node.uses, w.text = name

section Files

variable {config : Config} {root : Path} {files : List Parsed} {found : List Violation}

/-- The end of a run says one of these things, when the files have been looked at one after the
other. -/
theorem mayReport_finish (loads : Nat) : MayReport config root files (rule.finish
    ⟨config, (files.map fun f => (f.checkedBy config root rule).facts).foldl Bank.add {}, loads⟩) := by
  refine ⟨_, List.Perm.refl _, ?_⟩
  have bank : (files.map fun f => (f.checkedBy config root rule).facts).foldl Bank.add {} =
      filled (files.flatMap fun f => (f.checkedBy config root rule).facts.batches) := by
    rw [filled, List.foldl_flatMap, List.foldl_map]
    rfl
  rw [bank]
  exact reports_finish ⟨config, _, loads⟩

theorem facts_checkedBy (f : Parsed) : (f.checkedBy config root rule).facts =
    factsOfFile config (SourceFile.under root f.path f.content) f.syntaxTree := by
  rw [Parsed.checkedBy, facts_check]

theorem mem_symbols_checkedBy_iff {f : Parsed} {m : Mention} :
    m ∈ (f.checkedBy config root rule).facts.symbols ↔
      f.isTest root = false ∧ ∃ d ∈ f.syntaxTree.definitions,
        isRecorded config.includesPublic d = true ∧ mentionIn f.path d.name = m := by
  rw [facts_checkedBy]
  cases looked : f.isTest root with
  | true =>
      rw [factsOfFile, show (SourceFile.under root f.path f.content).isTest = true from looked]
      simp
  | false =>
      rw [symbols_factsOfFile config f.syntaxTree looked]
      simp [and_assoc, SourceFile.under]

theorem mem_uses_checkedBy_iff {f : Parsed} {m : Mention} :
    m ∈ (f.checkedBy config root rule).facts.invocations ++
        (f.checkedBy config root rule).facts.references ↔
      f.isTest root = false ∧ ∃ o ∈ f.syntaxTree.occurrences, isRead o.around = true ∧
        ∃ w ∈ o.node.uses, mentionIn f.path w = m := by
  rw [facts_checkedBy]
  cases looked : f.isTest root with
  | true =>
      rw [factsOfFile, show (SourceFile.under root f.path f.content).isTest = true from looked]
      simp
  | false =>
      rw [mem_uses_factsOfFile config f.syntaxTree looked]
      simp [SourceFile.under]

section Batches

variable {batches : List Batch} (fills : Fills config root files batches)

include fills

theorem mem_defined_iff {m : Mention} :
    m ∈ batches.flatMap Batch.defined ↔ IsRecorded config root files m := by
  rw [(List.Perm.flatMap_right _ fills).mem_iff, List.flatMap_assoc, List.mem_flatMap]
  refine exists_congr fun f => and_congr_right fun _ => ?_
  rw [← mem_symbols_checkedBy_iff]
  simp [Facts.batches, Batch.defined]

theorem exists_used_iff {name : String} :
    (∃ n ∈ batches.flatMap Batch.used, n.name = name) ↔ IsUsed root files name := by
  have put (f : Parsed) : (f.checkedBy config root rule).facts.batches.flatMap Batch.used =
      (f.checkedBy config root rule).facts.invocations ++
        (f.checkedBy config root rule).facts.references := by
    simp [Facts.batches, Batch.used]
  simp only [(List.Perm.flatMap_right _ fills).mem_iff, List.flatMap_assoc, List.mem_flatMap, put,
    mem_uses_checkedBy_iff]
  constructor
  · rintro ⟨_, ⟨f, file, looked, o, occurs, read, w, uses, rfl⟩, named⟩
    exact ⟨f, file, looked, o, occurs, read, w, uses, named⟩
  · rintro ⟨f, file, looked, o, occurs, read, w, uses, named⟩
    exact ⟨_, ⟨f, file, looked, o, occurs, read, w, uses, rfl⟩, named⟩

theorem isSpared_used_iff {name : String} :
    isSpared config (batches.flatMap Batch.used) name = false ↔
      ¬ IsUsed root files name ∧ Glob.matchesAny config.functionExcludes name = false := by
  rw [isSpared, Bool.or_eq_false_iff, ← exists_used_iff fills, List.any_eq_false]
  simp only [decide_eq_true_eq, not_exists, not_and]

end Batches

/-- What is reported are functions of the files that are recorded, that nothing uses and no exclude
matches; and of each such function there is a violation. -/
theorem MayReport.exists_unused (reports : MayReport config root files found) :
    ∃ unused : List Mention, found = unused.map violation ∧
      (∀ m ∈ unused, IsRecorded config root files m ∧ ¬ IsUsed root files m.name ∧
        Glob.matchesAny config.functionExcludes m.name = false) ∧
      ∀ m, IsRecorded config root files m → ¬ IsUsed root files m.name →
        Glob.matchesAny config.functionExcludes m.name = false → ∃ n ∈ unused, n.key = m.key := by
  obtain ⟨batches, fills, reports⟩ := reports
  obtain ⟨unused, rfl, _, mem_iff⟩ := reports.exists_unused
  refine ⟨unused, rfl, fun m member => ?_, fun m recorded unsaid kept => ?_⟩
  · obtain ⟨first, left⟩ := (mem_iff m).mp member
    have recorded := (mem_defined_iff fills).mp (List.mem_of_find?_eq_some first)
    exact ⟨recorded, (isSpared_used_iff fills).mp left⟩
  · -- Of the definitions that compare equal to this one, the bank has the first.
    have somewhere : ∃ n, (batches.flatMap Batch.defined).find? (·.key = m.key) = some n := by
      rw [← Option.isSome_iff_exists, List.find?_isSome]
      exact ⟨m, (mem_defined_iff fills).mpr recorded, decide_eq_true rfl⟩
    obtain ⟨n, first⟩ := somewhere
    have same : n.key = m.key := by simpa using List.find?_some first
    have name : n.name = m.name := congrArg Prod.fst same
    refine ⟨n, (mem_iff n).mpr ⟨?_, ?_⟩, same⟩
    · rwa [same]
    · exact (isSpared_used_iff fills).mpr (name ▸ ⟨unsaid, kept⟩)

/-- What is reported is a function of one of the files. -/
theorem MayReport.isRecorded (reports : MayReport config root files found) {m : Mention}
    (member : violation m ∈ found) : IsRecorded config root files m ∧ ¬ IsUsed root files m.name := by
  obtain ⟨unused, rfl, sound, _⟩ := reports.exists_unused
  obtain ⟨n, inside, same⟩ := List.mem_map.mp member
  obtain rfl := violation_injective same
  exact ⟨(sound n inside).1, (sound n inside).2.1⟩

/-- A function that a lone file adds may be reported, if the file uses its name nowhere. -/
theorem exists_mayReport {f : Parsed} {facts : Facts} {m : Mention}
    (adds : (f.checkedBy config root rule).facts = facts)
    (defined : m ∈ (Bank.add {} facts).contents .symbols)
    (unused : isSpared config (usesIn (Bank.add {} facts)) m.name = false) :
    ∃ found, MayReport config root [f] found ∧ violation m ∈ found := by
  refine ⟨_, mayReport_finish 0, ?_⟩
  rw [finish_eq, List.map_singleton, adds]
  exact mem_reportAmong.mpr ⟨m, defined, unused, rfl⟩

/-- Uses keep functions alive, in a project of these files. -/
structure KeepsUsed (config : Config) (root : Path) (files : List Parsed) : Prop where
  /-- A use in any of the files that hold no tests, at any depth, keeps all functions of that name
  from being reported, if it is in no test code and not part of a path that is called. -/
  kept : ∀ found, MayReport config root files found → ∀ f ∈ files, f.isTest root = false →
    ∀ o ∈ f.syntaxTree.occurrences, (∀ e ∈ o.around.items, isTest e = false) →
      o.around.inCallee = false → ∀ w ∈ o.node.uses, ∀ m, m.name = w.text → violation m ∉ found
  /-- Nothing else does, except for the excludes. -/
  only : ∀ found, MayReport config root files found → ∀ m, IsRecorded config root files m →
    (∀ v ∈ found, ∀ n, v = violation n → n.key ≠ m.key) →
      Glob.matchesAny config.functionExcludes m.name = true ∨
        ∃ f ∈ files, f.isTest root = false ∧ ∃ o ∈ f.syntaxTree.occurrences,
          (∀ e ∈ o.around.items, isTest e = false) ∧ o.around.inCallee = false ∧
            ∃ w ∈ o.node.uses, w.text = m.name
  /-- A node at any depth of a file is among those looked for. -/
  everywhere : ∀ f ∈ files, ∀ inner, (∃ o ∈ f.syntaxTree.occurrences, o.node = inner) ↔
    ∃ node ∈ f.syntaxTree.values ++ f.syntaxTree.items, node.Contains inner
  /-- So may be reported what a run says at the end. -/
  ends : ∀ loads, MayReport config root files (rule.finish ⟨config,
    (files.map fun f => (f.checkedBy config root rule).facts).foldl Bank.add {}, loads⟩)

end Files

theorem isRead_iff {W : Name → Prop} {around : Surroundings W} : isRead around = true ↔
    (∀ e ∈ around.items, isTest e = false) ∧ around.inCallee = false := by
  rw [isRead, Bool.and_eq_true, and_comm]
  simp

theorem finish_keepsUsed (config : Config) (root : Path) (files : List Parsed) :
    KeepsUsed config root files where
  kept found reports f file looked o occurs outside reached w uses m named member := by
    refine (reports.isRecorded member).2 ⟨f, file, looked, o, occurs, ?_, w, uses, named.symm⟩
    exact isRead_iff.mpr ⟨outside, reached⟩
  only found reports m recorded unsaid := by
    obtain ⟨unused, rfl, _, complete⟩ := reports.exists_unused
    by_contra neither
    obtain ⟨notExcluded, notUsed⟩ := not_or.mp neither
    have unsaid' : ¬ IsUsed root files m.name := by
      rintro ⟨f, file, looked, o, occurs, read, uses⟩
      obtain ⟨outside, reached⟩ := isRead_iff.mp read
      exact notUsed ⟨f, file, looked, o, occurs, outside, reached, uses⟩
    obtain ⟨n, inside, same⟩ :=
      complete m recorded unsaid' (Bool.eq_false_iff.mpr notExcluded)
    exact unsaid _ (List.mem_map_of_mem inside) n rfl same
  everywhere f _ inner := exists_occurrenceInAll_iff inner {} _
  ends loads := mayReport_finish loads

/-- A function that is called deep inside of another one. -/
def calledInside : String :=
  "fn g() \x7b\x7d\nfn main() \x7b for x in [0].map(|y| dbg!(y, g())) \x7b\x7d \x7d\n"

/-- The call keeps it from being reported. -/
theorem finish_calledInside : ∃ f : Parsed, f.content = calledInside ∧
    parse? f.content = some f.syntaxTree ∧ KeepsUsed {} ⟨"."⟩ [f] ∧
    IsRecorded {} ⟨"."⟩ [f] ⟨"g", ⟨⟨"src/a.rs"⟩, 1, 4⟩⟩ ∧
    ∀ found, MayReport {} ⟨"."⟩ [f] found →
      violation ⟨"g", ⟨⟨"src/a.rs"⟩, 1, 4⟩⟩ ∉ found := by
  have reads : (parse? calledInside).map (fun tree =>
      decide ((∃ d ∈ tree.definitions, isRecorded ({} : Config).includesPublic d = true ∧
          mentionIn ⟨"src/a.rs"⟩ d.name = ⟨"g", ⟨⟨"src/a.rs"⟩, 1, 4⟩⟩) ∧
        ∃ o ∈ tree.occurrences, ((∀ e ∈ o.around.items, isTest e = false) ∧
          o.around.inCallee = false) ∧ ∃ w ∈ o.node.uses, w.text = "g")) = some true := by
    decide +kernel
  have looked : (SourceFile.under ⟨"."⟩ ⟨"src/a.rs"⟩ calledInside).isTest = false := by
    decide +kernel
  obtain ⟨tree, parses, found⟩ := Option.map_eq_some_iff.mp reads
  obtain ⟨recorded, o, occurs, ⟨outside, reached⟩, w, uses, named⟩ := of_decide_eq_true found
  let f : Parsed := ⟨⟨"src/a.rs"⟩, calledInside, tree⟩
  have keeps := finish_keepsUsed {} ⟨"."⟩ [f]
  refine ⟨f, rfl, parses, keeps, ⟨f, List.mem_singleton_self f, looked, recorded⟩, ?_⟩
  intro found reports
  exact keeps.kept found reports f (List.mem_singleton_self f) looked o occurs outside reached w uses
    _ named.symm

/-- A call whose path has a block among its types, which calls a function. -/
def calledThrough : String :=
  "fn g() \x7b\x7d\nfn f() \x7b\x7d\nfn main() \x7b f::<\x7b g() \x7d>(); \x7d\n"

/-- The function is called outside of test code, and yet it is reported. -/
theorem finish_calledThrough : ∃ f : Parsed, f.content = calledThrough ∧
    parse? f.content = some f.syntaxTree ∧ f.isTest ⟨"."⟩ = false ∧
    (∃ o ∈ f.syntaxTree.occurrences, (∀ e ∈ o.around.items, isTest e = false) ∧
      ∃ w ∈ o.node.uses, w.text = "g") ∧
    ∃ found, MayReport {} ⟨"."⟩ [f] found ∧
      violation ⟨"g", ⟨⟨"src/a.rs"⟩, 1, 4⟩⟩ ∈ found := by
  have parses : (parse? calledThrough).map (fun tree =>
      (decide (∃ o ∈ tree.occurrences, (∀ e ∈ o.around.items, isTest e = false) ∧
        ∃ w ∈ o.node.uses, w.text = "g"),
        (Parsed.checkedBy {} ⟨"."⟩ ⟨⟨"src/a.rs"⟩, calledThrough, tree⟩ rule).facts)) =
      some (true,
        { symbols := [⟨"g", ⟨⟨"src/a.rs"⟩, 1, 4⟩⟩, ⟨"f", ⟨⟨"src/a.rs"⟩, 2, 4⟩⟩],
          invocations := [⟨"f", ⟨⟨"src/a.rs"⟩, 3, 13⟩⟩] }) := by
    decide +kernel
  obtain ⟨tree, parses, found⟩ := Option.map_eq_some_iff.mp parses
  obtain ⟨uses, adds⟩ := Prod.mk.inj found
  have reported := exists_mayReport (m := ⟨"g", ⟨⟨"src/a.rs"⟩, 1, 4⟩⟩) adds (by decide +kernel)
    (by decide +kernel)
  have looked : (SourceFile.under ⟨"."⟩ ⟨"src/a.rs"⟩ calledThrough).isTest = false := by
    decide +kernel
  exact ⟨⟨⟨"src/a.rs"⟩, calledThrough, tree⟩, rfl, parses, looked, of_decide_eq_true uses, reported⟩

end UnusedFunction

end SourceLint
