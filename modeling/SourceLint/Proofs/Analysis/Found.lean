import SourceLint.Proofs.Analysis.Completeness
import SourceLint.Proofs.Config.Settings
import SourceLint.Proofs.Rule.Selection
import SourceLint.Proofs.Sorting

/-! # What each rule finds by itself

Of the rules that there are one speaks about files and leaves no facts, and the other speaks at the
end from the facts that it has gathered itself. So the findings of each are its own: without the one
rule the other finds what it does with it, in whatever order the two are run.
-/

namespace SourceLint

/-- Where each rule finds what goes by its name, some of the rules find what goes by their names. -/
theorem flatMap_filter_name {g : Rule → List Violation} {rules : List Rule}
    (own : ∀ r ∈ rules, ∀ v ∈ g r, v.rule = r.name) (kept : String → Bool) :
    (rules.filter (kept ·.name)).flatMap g = (rules.flatMap g).filter (kept ·.rule) := by
  induction rules with
  | nil => rfl
  | cons r rest ih =>
      have others := ih fun s inside => own s (List.mem_cons_of_mem r inside)
      have here := own r List.mem_cons_self
      rw [List.flatMap_cons, List.filter_append, ← others, List.filter_cons]
      split
      · rename_i keeps
        have all : (g r).filter (kept ·.rule) = g r :=
          List.filter_eq_self.mpr fun v member => by rw [here v member, keeps]
        rw [List.flatMap_cons, all]
      · rename_i leaves
        have none : (g r).filter (kept ·.rule) = [] :=
          List.filter_eq_nil_iff.mpr fun v member => by rwa [here v member]
        rw [none, List.nil_append]

/-- At the end only the function rule has something to say. -/
theorem Rule.finishAll_all (run : Run) : finishAll run all =
    ((UnusedFunction.unused run.config run.bank).map UnusedFunction.violation).map
      (adjust run.config UnusedFunction.rule) :=
  List.append_nil _

namespace Analysis

section Found

variable (root : Path) (config : Config) (rules : List Rule) (files : List Parsed)

/-- What rules find in files. -/
def foundInFiles : List Violation :=
  files.flatMap fun f => rules.flatMap fun r =>
    (f.checkedBy config root r).violations.map (r.adjust config)

/-- The bank with the facts that rules gather from files. -/
def bankBy : Bank :=
  (files.flatMap fun f => rules.map fun r => (f.checkedBy config root r).facts).foldl Bank.add {}

/-- All that rules find: in files, and at the end with the facts that they have gathered. -/
def found : List Violation :=
  foundInFiles root config rules files ++
    Rule.finishAll ⟨config, bankBy root config rules files, 1⟩ rules

end Found

variable {root : Path} {config config' : Config} {rules rules' : List Rule} {files : List Parsed}

/-- A file after the other, a rule after the other. -/
theorem bankBy_eq : bankBy root config rules files = files.foldl (fun bank f =>
    rules.foldl (fun bank r => bank.add (f.checkedBy config root r).facts) bank) {} := by
  rw [bankBy, List.foldl_flatMap]
  simp only [List.foldl_map]

section Builtin

variable (builtin : ∀ r ∈ rules, r ∈ Rule.all)

include builtin

/-! ## The order of the rules -/

theorem foundInFiles_perm (perm : rules.Perm rules') :
    foundInFiles root config rules files = foundInFiles root config rules' files := by
  refine congrArg files.flatMap (funext fun f => flatMap_eq_of_perm perm fun r first s second => ?_)
  rcases Rule.mem_all_iff.mp (builtin r first) with rfl | rfl
  · rcases Rule.mem_all_iff.mp (builtin s second) with rfl | rfl
    · rfl
    · exact List.append_nil _
  · exact (List.append_nil _).symm

theorem bankBy_perm (perm : rules.Perm rules') :
    bankBy root config rules files = bankBy root config rules' files := by
  rw [bankBy_eq, bankBy_eq]
  congr 1
  funext bank f
  refine perm.foldl_eq' (fun r first s second bank => ?_) bank
  rcases Rule.mem_all_iff.mp (builtin r first) with rfl | rfl
  · rcases Rule.mem_all_iff.mp (builtin s second) with rfl | rfl
    · rfl
    · exact congrArg (Bank.add · _) (Bank.add_nothing bank) |>.trans (Bank.add_nothing _).symm
  · rcases Rule.mem_all_iff.mp (builtin s second) with rfl | rfl
    · exact (Bank.add_nothing _).trans (congrArg (Bank.add · _) (Bank.add_nothing bank).symm)
    · rfl

theorem finishAll_perm (run : Run) (perm : rules.Perm rules') :
    Rule.finishAll run rules = Rule.finishAll run rules' := by
  refine flatMap_eq_of_perm perm fun r first s second => ?_
  rcases Rule.mem_all_iff.mp (builtin r first) with rfl | rfl
  · exact (List.append_nil _).symm
  · rcases Rule.mem_all_iff.mp (builtin s second) with rfl | rfl
    · exact List.append_nil _
    · rfl

/-- In whatever order the rules are run, they find the same in the same order. -/
theorem found_perm (perm : rules.Perm rules') :
    found root config rules files = found root config rules' files := by
  rw [found, found, foundInFiles_perm builtin perm, bankBy_perm builtin perm,
    finishAll_perm builtin _ perm]

/-! ## Some of the rules -/

theorem foundInFiles_filter (kept : String → Bool) :
    foundInFiles root config (rules.filter (kept ·.name)) files =
      (foundInFiles root config rules files).filter (kept ·.rule) := by
  rw [foundInFiles, foundInFiles, List.filter_flatMap]
  refine congrArg files.flatMap (funext fun f => flatMap_filter_name (fun r listed v member => ?_) kept)
  obtain ⟨w, own, rfl⟩ := List.mem_map.mp member
  exact (Rule.isOf_check (builtin r listed) config _ f.syntaxTree w own).rule

theorem finishAll_filter (run : Run) (kept : String → Bool) :
    Rule.finishAll run (rules.filter (kept ·.name)) =
      (Rule.finishAll run rules).filter (kept ·.rule) := by
  refine flatMap_filter_name (fun r listed v member => ?_) kept
  obtain ⟨w, own, rfl⟩ := List.mem_map.mp member
  exact (Rule.Ends.isOf (builtin r listed) (.settled r) w own).rule

/-- The bank is filled by the function rule alone. -/
theorem bankBy_filter {kept : String → Bool} (keeps : kept unusedFunctionRule = true) :
    bankBy root config (rules.filter (kept ·.name)) files = bankBy root config rules files := by
  rw [bankBy_eq, bankBy_eq]
  congr 1
  funext bank f
  induction rules generalizing bank with
  | nil => rfl
  | cons r rest ih =>
      have others := ih fun s inside => builtin s (List.mem_cons_of_mem r inside)
      rw [List.filter_cons]
      split
      · exact others _
      · rename_i leaves
        rcases Rule.mem_all_iff.mp (builtin r List.mem_cons_self) with rfl | rfl
        · rw [List.foldl_cons, others]
          exact congrArg (rest.foldl _) (Bank.add_nothing bank).symm
        · exact absurd keeps leaves

/-- Without the function rule nothing is said at the end. -/
theorem finishAll_without (run : Run) (without : ∀ r ∈ rules, r.name ≠ unusedFunctionRule) :
    Rule.finishAll run rules = [] := by
  refine List.flatMap_eq_nil_iff.mpr fun r listed => ?_
  rcases Rule.mem_all_iff.mp (builtin r listed) with rfl | rfl
  · rfl
  · exact absurd rfl (without _ listed)

/-- Some of the rules find what goes by their names among what all find, in the same order. -/
theorem found_filter (kept : String → Bool) :
    found root config (rules.filter (kept ·.name)) files =
      (found root config rules files).filter (kept ·.rule) := by
  rw [found, found, List.filter_append, foundInFiles_filter builtin, ← finishAll_filter builtin]
  congr 1
  cases keeps : kept unusedFunctionRule with
  | true => rw [bankBy_filter builtin keeps]
  | false =>
      -- The bank is another one then, but the rule that would look at it is gone.
      have listed : ∀ r ∈ rules.filter (kept ·.name), r ∈ Rule.all :=
        fun r inside => builtin r (List.mem_filter.mp inside).1
      have without : ∀ r ∈ rules.filter (kept ·.name), r.name ≠ unusedFunctionRule := by
        intro r inside same
        have keeps' := (List.mem_filter.mp inside).2
        rw [same, keeps] at keeps'
        cases keeps'
      rw [finishAll_without listed _ without, finishAll_without listed _ without]

/-! ## Other settings -/

/-- Another configuration that says the same but for the settings of rules leads to the same
findings, at the severities that it gives them. -/
theorem found_sameButSettings (same : Config.SameButSettings config config')
    {g : Violation → Violation} (adjusts : ∀ r ∈ rules, ∀ v : Violation, v.IsOf r r.severity →
      r.adjust config' v = g (r.adjust config v)) :
    found root config' rules files = (found root config rules files).map g := by
  have check {r : Rule} (listed : r ∈ rules) (f : Parsed) :
      f.checkedBy config' root r = f.checkedBy config root r :=
    Rule.check_congr (builtin r listed) same.maxLineLength same.tabWidth same.includesPublic _ _
  have bank : bankBy root config' rules files = bankBy root config rules files := by
    refine congrArg (List.foldl Bank.add {}) (congrArg files.flatMap (funext fun f => ?_))
    exact List.map_congr_left fun r listed => by rw [check listed f]
  have adjusted {r : Rule} (listed : r ∈ rules) {l : List Violation}
      (own : ∀ v ∈ l, v.IsOf r r.severity) :
      l.map (r.adjust config') = (l.map (r.adjust config)).map g := by
    rw [List.map_map]
    exact List.map_congr_left fun v member => adjusts r listed v (own v member)
  rw [found, found, List.map_append, bank]
  congr 1
  · rw [foundInFiles, foundInFiles, List.map_flatMap]
    refine congrArg files.flatMap (funext fun f => ?_)
    rw [List.map_flatMap]
    refine List.flatMap_congr fun r listed => ?_
    rw [check listed f]
    exact adjusted listed (Rule.isOf_check (builtin r listed) config _ f.syntaxTree)
  · rw [Rule.finishAll, Rule.finishAll, List.map_flatMap]
    refine List.flatMap_congr fun r listed => ?_
    rw [Rule.finish_congr (builtin r listed) same.functionExcludes]
    exact adjusted listed (Rule.Ends.isOf (builtin r listed) (.settled r))

end Builtin

end Analysis

end SourceLint
