import SourceLint.Proofs.FileTree.Lookup
import SourceLint.Proofs.Rule.Mentions
import SourceLint.Proofs.Analysis.Workers

/-! # What files say

What the rules say about the files of a run, and what the bank holds when all of it has
been posted. The rules there are never ask for a run to be given up, and what they find for
the bank are words of the file at their places: so even when a file goes by two paths, no
place in it has two names.
-/

namespace SourceLint

/-! ## Several rules -/

namespace Checked

theorem join_cons (c : Checked) (rest : List Checked) : join (c :: rest) = c ++ join rest :=
  rfl

theorem violations_append (c d : Checked) : (c ++ d).violations = c.violations ++ d.violations :=
  rfl

theorem facts_append (c d : Checked) : (c ++ d).facts = c.facts ++ d.facts :=
  rfl

theorem cancels_append (c d : Checked) : (c ++ d).cancels = (c.cancels || d.cancels) :=
  rfl

theorem violations_join (all : List Checked) :
    (join all).violations = all.flatMap (·.violations) := by
  induction all with
  | nil => rfl
  | cons c rest ih => rw [join_cons, violations_append, ih, List.flatMap_cons]

theorem cancels_join {all : List Checked} (none : ∀ c ∈ all, c.cancels = false) :
    (join all).cancels = false := by
  induction all with
  | nil => rfl
  | cons c rest ih =>
      rw [join_cons, cancels_append, none c List.mem_cons_self,
        ih fun d member => none d (List.mem_cons_of_mem _ member)]
      rfl

end Checked

/-- The facts define the function. -/
def Facts.Defines (f : Facts) (m : Mention) : Prop :=
  ∃ batch ∈ f.batches, m ∈ batch.defined

/-- The facts use the name. -/
def Facts.Uses (f : Facts) (name : String) : Prop :=
  ∃ batch ∈ f.batches, ∃ m ∈ batch.used, m.name = name

namespace Facts

theorem defines_iff {f : Facts} {m : Mention} : f.Defines m ↔ m ∈ f.symbols := by
  simp [Defines, batches, Batch.defined]

theorem uses_iff {f : Facts} {name : String} :
    f.Uses name ↔ (∃ m ∈ f.invocations, m.name = name) ∨ ∃ m ∈ f.references, m.name = name := by
  simp [Uses, batches, Batch.used]

theorem Defines.mention {f : Facts} {m : Mention} (defined : f.Defines m) : m ∈ f.mentions :=
  List.mem_append_left _ (defines_iff.mp defined)

theorem defines_append {f g : Facts} {m : Mention} :
    (f ++ g).Defines m ↔ f.Defines m ∨ g.Defines m := by
  simp only [defines_iff]
  exact List.mem_append

theorem uses_append {f g : Facts} {name : String} :
    (f ++ g).Uses name ↔ f.Uses name ∨ g.Uses name := by
  simp only [uses_iff]
  change (∃ m ∈ f.invocations ++ g.invocations, m.name = name) ∨
    (∃ m ∈ f.references ++ g.references, m.name = name) ↔ _
  simp only [List.mem_append]
  grind

theorem defines_join {all : List Checked} {m : Mention} :
    (Checked.join all).facts.Defines m ↔ ∃ c ∈ all, c.facts.Defines m := by
  induction all with
  | nil => simp [defines_iff, Checked.join]
  | cons c rest ih =>
      rw [Checked.join_cons, Checked.facts_append, defines_append, ih]
      simp only [List.mem_cons, exists_eq_or_imp]

theorem uses_join {all : List Checked} {name : String} :
    (Checked.join all).facts.Uses name ↔ ∃ c ∈ all, c.facts.Uses name := by
  induction all with
  | nil => simp [uses_iff, Checked.join]
  | cons c rest ih =>
      rw [Checked.join_cons, Checked.facts_append, uses_append, ih]
      simp only [List.mem_cons, exists_eq_or_imp]

end Facts

theorem exists_batch_iff {checked : List Checked} {p : Batch → Prop} :
    (∃ batch ∈ checked.flatMap fun c => c.facts.batches, p batch) ↔
      ∃ c ∈ checked, ∃ batch ∈ c.facts.batches, p batch := by
  simp only [List.mem_flatMap]
  constructor
  · rintro ⟨batch, ⟨c, member, inside⟩, holds⟩
    exact ⟨c, member, batch, inside, holds⟩
  · rintro ⟨c, member, batch, inside, holds⟩
    exact ⟨batch, ⟨c, member, inside⟩, holds⟩

/-! ## The rules there are -/

namespace Rule

variable {W : Source.Name → Prop} {r : Rule}

theorem cancels_checkAdjusted (builtin : r ∈ all) (config : Config) (file : SourceFile)
    (tree : Source.Tree W) : (checkAdjusted config file tree r).cancels = false := by
  rcases mem_all_iff.mp builtin with rfl | rfl
  · rfl
  · rfl

theorem mentions_checkAdjusted (builtin : r ∈ all) (config : Config) (file : SourceFile)
    (tree : Source.Tree W) :
    UnusedFunction.Mentions W file.path (checkAdjusted config file tree r).facts := by
  rcases mem_all_iff.mp builtin with rfl | rfl
  · exact UnusedFunction.mentions_nothing file.path
  · exact UnusedFunction.mentions_factsOfFile config file tree

end Rule

namespace Analysis

variable {a : Analysis} {tree : FileTree} {config : Config} {paths : List Path}

theorem mem_enabledRules {r : Rule} (builtin : ∀ r ∈ a.rules, r ∈ Rule.all)
    (member : r ∈ a.enabledRules config) : r ∈ Rule.all :=
  builtin r (List.mem_filter.mp member).1

/-- What is said about a file is said by rules about its text. -/
theorem exists_of_mem_said {path : Path} {all : List Checked} {c : Checked}
    (reads : a.said tree config path = .ok all) (member : c ∈ all) :
    ∃ content, tree.read path = .ok content ∧
      ∃ syntaxTree : Source.Tree (Source.IsWordOf (Source.contentOf content)),
        ∃ r ∈ a.enabledRules config,
          c = r.checkAdjusted config (SourceFile.under a.fullRoot path content) syntaxTree := by
  unfold said checkEach at reads
  split at reads
  · cases reads
  · rename_i content text
    split at reads
    · cases reads
    · rename_i syntaxTree _
      cases reads
      obtain ⟨r, enabled, rfl⟩ := List.mem_map.mp member
      exact ⟨content, text, syntaxTree, r, enabled, rfl⟩

/-- Some file defines the function. -/
def Defines (a : Analysis) (tree : FileTree) (config : Config) (paths : List Path)
    (m : Mention) : Prop :=
  ∃ path ∈ paths, ∃ all, a.said tree config path = .ok all ∧ ∃ c ∈ all, c.facts.Defines m

/-- Some file uses the name. -/
def Uses (a : Analysis) (tree : FileTree) (config : Config) (paths : List Path)
    (name : String) : Prop :=
  ∃ path ∈ paths, ∃ all, a.said tree config path = .ok all ∧ ∃ c ∈ all, c.facts.Uses name

theorem Defines.file_mem (builtin : ∀ r ∈ a.rules, r ∈ Rule.all) {m : Mention}
    (defined : Defines a tree config paths m) : m.location.file ∈ paths := by
  obtain ⟨path, member, all, reads, c, inside, defined⟩ := defined
  obtain ⟨content, text, syntaxTree, r, enabled, rfl⟩ := exists_of_mem_said reads inside
  obtain ⟨name, rfl⟩ := Rule.mentions_checkAdjusted (mem_enabledRules builtin enabled) config _
    syntaxTree m defined.mention
  exact member

/-- Functions that are defined in one place have one name. -/
theorem Defines.name_eq (builtin : ∀ r ∈ a.rules, r ∈ Rule.all) {m n : Mention}
    (first : Defines a tree config paths m) (second : Defines a tree config paths n)
    (same : m.location.key = n.location.key) : m.name = n.name := by
  obtain ⟨path, _, all, reads, c, inside, defined⟩ := first
  obtain ⟨path', _, all', reads', c', inside', defined'⟩ := second
  obtain ⟨content, text, syntaxTree, r, enabled, rfl⟩ := exists_of_mem_said reads inside
  obtain ⟨content', text', syntaxTree', r', enabled', rfl⟩ := exists_of_mem_said reads' inside'
  have mentions := Rule.mentions_checkAdjusted (mem_enabledRules builtin enabled) config
    (SourceFile.under a.fullRoot path content) syntaxTree
  have mentions' := Rule.mentions_checkAdjusted (mem_enabledRules builtin enabled') config
    (SourceFile.under a.fullRoot path' content') syntaxTree'
  obtain ⟨file, line, column⟩ : m.location.file.components = n.location.file.components ∧
      m.location.line = n.location.line ∧ m.location.column = n.location.column := by
    simpa only [Location.key, Prod.mk.injEq] using same
  have sameFile : path.components = path'.components := by
    obtain ⟨_, rfl⟩ := mentions m defined.mention
    obtain ⟨_, rfl⟩ := mentions' n defined'.mention
    exact file
  obtain rfl := FileTree.read_eq sameFile text text'
  exact mentions.name_eq mentions' defined.mention defined'.mention line column

/-! ## One file after the other -/

theorem mem_successes {A : Type} {results : List (Except Failure A)} {result : A} :
    result ∈ successes results ↔ .ok result ∈ results := by
  rw [successes, List.mem_filterMap]
  constructor
  · rintro ⟨entry, member, success⟩
    cases entry with
    | error failure => cases success
    | ok other =>
        cases success
        exact member
  · exact fun member => ⟨.ok result, member, rfl⟩

theorem successes_map {A B : Type} (f : A → B) (results : List (Except Failure A)) :
    successes (results.map (·.map f)) = (successes results).map f := by
  induction results with
  | nil => rfl
  | cons result rest ih =>
      cases result with
      | error failure => exact ih
      | ok found => exact congrArg (f found :: ·) ih

theorem failure?_map {A B : Type} (strict : Bool) (f : A → B) (results : List (Except Failure A)) :
    failure? strict (results.map (·.map f)) = failure? strict results := by
  induction results with
  | nil => rfl
  | cons result rest ih =>
      cases result with
      | error failure =>
          change (if failure.fails strict then some failure
            else failure? strict (rest.map (·.map f))) = _
          rw [ih]
          rfl
      | ok found => exact ih

theorem map_inspect (a : Analysis) (tree : FileTree) (config : Config) (paths : List Path) :
    paths.map (inspect tree a.fullRoot config (a.enabledRules config)) =
      (paths.map (a.said tree config)).map (·.map Checked.join) := by
  rw [List.map_map]
  rfl

theorem isGivenUp_eq_false (builtin : ∀ r ∈ a.rules, r ∈ Rule.all) :
    isGivenUp (paths.map (inspect tree a.fullRoot config (a.enabledRules config))) = false := by
  rw [isGivenUp, List.any_eq_false]
  intro result member
  obtain ⟨path, _, rfl⟩ := List.mem_map.mp member
  rw [inspect]
  cases reads : checkEach tree a.fullRoot config (a.enabledRules config) path with
  | error failure => exact Bool.false_ne_true
  | ok all =>
      have none : ∀ c ∈ all, c.cancels = false := by
        intro c inside
        obtain ⟨content, text, syntaxTree, r, enabled, rfl⟩ := exists_of_mem_said reads inside
        exact Rule.cancels_checkAdjusted (mem_enabledRules builtin enabled) ..
      change ¬ (Checked.join all).cancels = true
      rw [Checked.cancels_join none]
      exact Bool.false_ne_true

theorem bankOf_eq (checked : List Checked) :
    bankOf checked = (checked.flatMap fun c => c.facts.batches).foldl Bank.post {} := by
  unfold bankOf
  simp only [Bank.add_eq]
  exact List.foldl_flatMap.symm

theorem exists_inspected (a : Analysis) (tree : FileTree) (config : Config) (paths : List Path)
    (p : Checked → Prop) :
    (∃ c ∈ successes (paths.map (inspect tree a.fullRoot config (a.enabledRules config))), p c) ↔
      ∃ path ∈ paths, ∃ all, a.said tree config path = .ok all ∧ p (Checked.join all) := by
  rw [map_inspect, successes_map]
  simp only [List.mem_map, mem_successes]
  constructor
  · rintro ⟨_, ⟨all, ⟨path, member, reads⟩, rfl⟩, holds⟩
    exact ⟨path, member, all, reads, holds⟩
  · rintro ⟨path, member, all, reads, holds⟩
    exact ⟨_, ⟨all, ⟨path, member, reads⟩, rfl⟩, holds⟩

/-- What is found in files some rule that is switched on finds in one of them. -/
theorem exists_check_of_mem_inspected {v : Violation}
    (found : v ∈ (successes (paths.map (inspect tree a.fullRoot config
      (a.enabledRules config)))).flatMap (·.violations)) :
    ∃ path ∈ paths, ∃ content,
      ∃ syntaxTree : Source.Tree (Source.IsWordOf (Source.contentOf content)),
        ∃ r ∈ a.enabledRules config,
          ∃ w ∈ (r.check config (SourceFile.under a.fullRoot path content) syntaxTree).violations,
            r.adjust config w = v := by
  obtain ⟨c, inspected, member⟩ := List.mem_flatMap.mp found
  obtain ⟨path, listed, all, reads, member⟩ :=
    (exists_inspected a tree config paths fun c => v ∈ c.violations).mp ⟨c, inspected, member⟩
  rw [Checked.violations_join] at member
  obtain ⟨c, said, member⟩ := List.mem_flatMap.mp member
  obtain ⟨content, _, syntaxTree, r, enabled, rfl⟩ := exists_of_mem_said reads said
  obtain ⟨w, own, adjusted⟩ := List.mem_map.mp member
  exact ⟨path, listed, content, syntaxTree, r, enabled, w, own, adjusted⟩

/-- After one file after the other the bank holds what the files define and use. -/
theorem holds_bankOf (a : Analysis) (tree : FileTree) (config : Config) (paths : List Path) :
    (bankOf (successes
      (paths.map (inspect tree a.fullRoot config (a.enabledRules config))))).Holds
        (Defines a tree config paths) (Uses a tree config paths) := by
  rw [bankOf_eq]
  refine (Bank.holds_foldl_post _).congr ?_ ?_
  · intro m
    have here := exists_inspected a tree config paths fun c => c.facts.Defines m
    simp only [Facts.defines_join] at here
    rw [Defines, ← here]
    exact exists_batch_iff
  · intro name
    have here := exists_inspected a tree config paths fun c => c.facts.Uses name
    simp only [Facts.uses_join] at here
    rw [Uses, ← here]
    exact exists_batch_iff

end Analysis

end SourceLint
