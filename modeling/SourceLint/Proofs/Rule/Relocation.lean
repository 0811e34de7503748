import Mathlib.Data.List.Nodup
import SourceLint.Proofs.Rule.Ending
import SourceLint.Proofs.Rule.Mentions

/-! # Rules and the paths of files

What rules say about a file names it by its path, and depends on the path in no other way.
So where files go by other paths that compare as theirs did, the rules say the same of them.
-/

namespace SourceLint

open Source

variable {move : Path → Path}

/-! ## Other paths -/

/-- The same place when files go by other paths. -/
def Location.moved (move : Path → Path) (l : Location) : Location :=
  { l with file := move l.file }

def Mention.moved (move : Path → Path) (m : Mention) : Mention :=
  { m with location := m.location.moved move }

def Violation.moved (move : Path → Path) (v : Violation) : Violation :=
  { v with location := v.location.moved move }

namespace Facts

def moved (move : Path → Path) (f : Facts) : Facts :=
  ⟨f.symbols.map (·.moved move), f.invocations.map (·.moved move),
    f.references.map (·.moved move)⟩

theorem moved_append (f g : Facts) : (f ++ g).moved move = f.moved move ++ g.moved move := by
  change (f.append g).moved move = (f.moved move).append (g.moved move)
  simp [moved, Facts.append]

end Facts

namespace Checked

def moved (move : Path → Path) (c : Checked) : Checked :=
  { c with violations := c.violations.map (·.moved move), facts := c.facts.moved move }

theorem moved_append (c d : Checked) : (c ++ d).moved move = c.moved move ++ d.moved move := by
  change (c.append d).moved move = (c.moved move).append (d.moved move)
  simp [moved, Checked.append, Facts.moved_append]

theorem moved_join (all : List Checked) :
    (join all).moved move = join (all.map (·.moved move)) := by
  induction all with
  | nil => rfl
  | cons c rest ih =>
      change (c ++ join rest).moved move = c.moved move ++ join (rest.map (·.moved move))
      rw [moved_append, ih]

end Checked

/-- The same file by another path. -/
def SourceFile.moved (move : Path → Path) (f : SourceFile) : SourceFile :=
  { f with path := move f.path }

/-! ## Facts -/

namespace UnusedFunction

variable {W : Name → Prop}

def Scope.moved (move : Path → Path) (s : Scope) : Scope :=
  { s with file := move s.file }

theorem Scope.inside_moved (s : Scope) (kind : ItemKind W) :
    (s.moved move).inside kind = (s.inside kind).moved move := by
  cases kind <;> rfl

theorem Scope.definition_moved (s : Scope) (name : Word W) (visible : Bool) :
    (s.moved move).definition name visible = (s.definition name visible).moved move := by
  simp only [definition]
  split
  · rw [if_pos (by assumption)]
    rfl
  · rw [if_neg (by assumption)]
    rfl

theorem Scope.ofKind_moved (s : Scope) (kind : ItemKind W) :
    (s.moved move).ofKind kind = (s.ofKind kind).moved move := by
  cases kind with
  | function name visible => exact s.definition_moved name visible
  | method name visible =>
      rw [ofKind, ofKind, definition_moved]
      cases inside : s.inTraitImplementation <;> simp [moved, inside]
      rfl
  | _ => rfl

theorem facts_call {callee : Node W} (other : ∀ name parts, callee ≠ .path name parts) (s : Scope)
    (attributes arguments : List (Node W)) : facts s (.call attributes callee arguments) =
      factsOfAll s attributes ++ facts s callee ++ factsOfAll s arguments := by
  rw [facts]
  exact other

mutual

theorem facts_moved (s : Scope) : (node : Node W) →
    facts (s.moved move) node = (facts s node).moved move
  | .path name parts => by
      rw [facts, facts, Facts.moved_append, factsOfAll_moved]
      rfl
  | .call attributes callee arguments => by
      by_cases path : ∃ name parts, callee = .path name parts
      · obtain ⟨name, parts, rfl⟩ := path
        rw [facts, facts, Facts.moved_append, factsOfAll_moved]
        rfl
      · have other : ∀ name parts, callee ≠ .path name parts :=
          fun name parts same => path ⟨name, parts, same⟩
        rw [facts_call other, facts_call other, Facts.moved_append, Facts.moved_append,
          factsOfAll_moved, factsOfAll_moved, facts_moved s callee]
  | .methodCall name parts => by
      rw [facts, facts, Facts.moved_append, factsOfAll_moved]
      rfl
  | .imported name => by
      rw [facts, facts]
      rfl
  | .operation first parts => by
      rw [facts, facts, Facts.moved_append, factsOfAll_moved, facts_moved s first]
  | .item kind attributes parts => by
      rw [facts, facts, Scope.ofKind_moved, Scope.inside_moved, factsOfAll_moved]
      split
      · rfl
      · rw [Facts.moved_append]
  | .group parts => by
      rw [facts, facts, factsOfAll_moved]
  | .unread => by
      rw [facts, facts]
      rfl

theorem factsOfAll_moved (s : Scope) : (nodes : List (Node W)) →
    factsOfAll (s.moved move) nodes = (factsOfAll s nodes).moved move
  | [] => by
      rw [factsOfAll, factsOfAll]
      rfl
  | node :: rest => by
      rw [factsOfAll, factsOfAll, Facts.moved_append, facts_moved s node, factsOfAll_moved s rest]

end

theorem factsOfFile_moved (config : Config) (file : SourceFile) (tree : Tree W) :
    factsOfFile config (file.moved move) tree = (factsOfFile config file tree).moved move := by
  have test : (file.moved move).isTest = file.isTest := rfl
  rw [factsOfFile, factsOfFile, test]
  split
  · rfl
  · exact factsOfAll_moved ⟨file.path, config.includesPublic, false⟩ _

end UnusedFunction

/-! ## Paths that compare as before -/

/-- The files at the paths go by other paths that compare as theirs, and none goes by two. -/
structure Renames (move : Path → Path) (paths : List Path) : Prop where
  compare_eq : ∀ p ∈ paths, ∀ q ∈ paths, compare (move p) (move q) = compare p q
  once : ∀ p ∈ paths, ∀ q ∈ paths, p.components = q.components → p = q

section Paths

variable {paths : List Path} (renames : Renames move paths)

include renames

theorem Renames.eq_of_key_eq {a b : Location} (first : a.file ∈ paths) (second : b.file ∈ paths)
    (same : a.key = b.key) : a = b := by
  simp only [Location.key, Prod.mk.injEq] at same
  obtain ⟨file, line, column⟩ := same
  have path := renames.once _ first _ second file
  obtain ⟨_, _, _⟩ := a
  obtain ⟨_, _, _⟩ := b
  simp_all

theorem Renames.compare_location {a b : Location} (first : a.file ∈ paths)
    (second : b.file ∈ paths) : compare (a.moved move) (b.moved move) = compare a b := by
  change (compare (move a.file) (move b.file)).then _ = (compare a.file b.file).then _
  rw [renames.compare_eq _ first _ second]
  rfl

end Paths

namespace UnusedFunction

variable {config : Config} {bank bank' : Bank} {defined : Mention → Prop} {used : String → Prop}
  {m n : Mention}

/-- The unused functions are known where no function is defined under two paths. -/
theorem mem_unused_iff (holds : bank.Holds defined used)
    (once : ∀ m n, defined m → defined n → m.key = n.key → m = n) :
    m ∈ unused config bank ↔ defined m ∧ isReported config bank m.name = true := by
  have listed : m ∈ bank.symbols.toList ↔ defined m := by
    refine ⟨holds.sound m, fun is => ?_⟩
    obtain ⟨k, member, same⟩ := mem_iff_exists_mem_toList.mp (holds.complete m is)
    rwa [once k m (holds.sound k member) is same] at member
  rw [unused, unusedAmong, List.mem_mergeSort, List.mem_filter, listed]
  rfl

theorem nodup_unused (config : Config) (bank : Bank) : (unused config bank).Nodup := by
  have distinct := List.Nodup.of_map _ (nodup_keys bank (.refl bank.symbols.toList))
  exact ((List.mergeSort_perm _ _).nodup_iff).mpr (distinct.sublist List.filter_sublist)

theorem pairwise_unused (config : Config) (bank : Bank) :
    (unused config bank).Pairwise fun a b => a.location.le b.location := by
  have sorted := pairwise_mergeSort_comparePlaces
    ((bank.symbols.toList.filter fun m => isReported config bank m.name).map Mention.key)
  rw [← keys_unusedAmong] at sorted
  exact List.pairwise_map.mp sorted

section Named

variable {paths : List Path} (renames : Renames move paths)
  (inside : ∀ m, defined m → m.location.file ∈ paths)
  (named : ∀ m n, defined m → defined n → m.location.key = n.location.key → m.name = n.name)

include renames inside named

theorem eq_of_key_eq (first : defined m) (second : defined n)
    (same : m.location.key = n.location.key) : m = n := by
  have name := named m n first second same
  have place := renames.eq_of_key_eq (inside m first) (inside n second) same
  obtain ⟨_, _⟩ := m
  obtain ⟨_, _⟩ := n
  exact congrArg₂ Mention.mk name place

theorem eq_of_key_moved (first : defined m) (second : defined n)
    (same : (m.location.moved move).key = (n.location.moved move).key) : m = n := by
  refine eq_of_key_eq renames inside named first second (Location.compare_eq_iff.mp ?_)
  rw [← renames.compare_location (inside m first) (inside n second)]
  exact Location.compare_eq_iff.mpr same

/-- Where files go by other paths the same functions are unused, in the same order. -/
theorem unused_moved (holds : bank.Holds defined used)
    (holds' : bank'.Holds (fun m => ∃ k, defined k ∧ k.moved move = m) used) :
    unused config bank' = (unused config bank).map (·.moved move) := by
  have reported (name : String) : isReported config bank' name = isReported config bank name := by
    have same : isUsed bank' name = isUsed bank name := by
      rw [Bool.eq_iff_iff, holds.used_iff, holds'.used_iff]
    rw [isReported, isReported, same]
  have once : ∀ m n, defined m → defined n → m.key = n.key → m = n :=
    fun m n first second same =>
      eq_of_key_eq renames inside named first second (congrArg Prod.snd same)
  have once' : ∀ m n, (∃ k, defined k ∧ k.moved move = m) → (∃ k, defined k ∧ k.moved move = n) →
      m.key = n.key → m = n := by
    rintro _ _ ⟨k, first, rfl⟩ ⟨l, second, rfl⟩ same
    rw [eq_of_key_moved renames inside named first second (congrArg Prod.snd same)]
  have perm : (unused config bank').Perm ((unused config bank).map (·.moved move)) := by
    refine (List.perm_ext_iff_of_nodup (nodup_unused config bank') ?_).mpr fun m => ?_
    · refine List.Nodup.map_on ?_ (nodup_unused config bank)
      intro k first l second same
      rw [mem_unused_iff holds once] at first second
      exact eq_of_key_moved renames inside named first.1 second.1
        (congrArg (fun m => m.location.key) same)
    · rw [mem_unused_iff holds' once', List.mem_map]
      constructor
      · rintro ⟨⟨k, is, rfl⟩, unused⟩
        exact ⟨k, (mem_unused_iff holds once).mpr ⟨is, (reported _).symm.trans unused⟩, rfl⟩
      · rintro ⟨k, listed, rfl⟩
        obtain ⟨is, unused⟩ := (mem_unused_iff holds once).mp listed
        exact ⟨⟨k, is, rfl⟩, (reported _).trans unused⟩
  have ordered : ((unused config bank).map (·.moved move)).Pairwise
      fun a b => a.location.le b.location := by
    refine List.pairwise_map.mpr ((pairwise_unused config bank).imp_of_mem ?_)
    intro k l first second before
    have files := renames.compare_location
      (inside k ((mem_unused_iff holds once).mp first).1)
      (inside l ((mem_unused_iff holds once).mp second).1)
    exact (congrArg Ordering.isLE files).trans before
  refine List.Perm.eq_of_pairwise ?_ (pairwise_unused config bank') ordered perm
  intro m n first second before after
  obtain ⟨⟨k, is, rfl⟩, _⟩ := (mem_unused_iff holds' once').mp first
  obtain ⟨⟨l, is', rfl⟩, _⟩ := (mem_unused_iff holds' once').mp (perm.mem_iff.mpr second)
  have place := Location.compare_eq_iff.mp (Std.OrientedCmp.isLE_antisymm before after)
  rw [eq_of_key_moved renames inside named is is' place]

end Named

end UnusedFunction

/-! ## What rules say -/

theorem LongLine.violationsFrom_moved (file : Path) (max tabWidth : Nat) {line : Nat}
    {lines : List (List Char)} : violationsFrom (move file) max tabWidth line lines =
      (violationsFrom file max tabWidth line lines).map (·.moved move) := by
  induction lines generalizing line with
  | nil => rfl
  | cons cs rest ih =>
      rw [violationsFrom, violationsFrom, ih]
      split <;> rfl

theorem LongLine.file_of_mem_violationsFrom (file : Path) (max tabWidth : Nat) {line : Nat}
    {lines : List (List Char)} :
    ∀ v ∈ violationsFrom file max tabWidth line lines, v.location.file = file := by
  induction lines generalizing line with
  | nil =>
      intro v member
      cases member
  | cons cs rest ih =>
      intro v member
      rw [violationsFrom] at member
      split at member
      · rcases List.mem_cons.mp member with rfl | later
        · rfl
        · exact ih v later
      · exact ih v member

namespace Rule

variable {r : Rule}

theorem check_moved (builtin : r ∈ all) {W : Name → Prop} (config : Config) (file : SourceFile)
    (tree : Tree W) :
    r.check config (file.moved move) tree = (r.check config file tree).moved move := by
  rcases mem_all_iff.mp builtin with rfl | rfl
  · exact congrArg (fun violations => ({ violations } : Checked))
      (LongLine.violationsFrom_moved file.path config.maxLineLength config.tabWidth)
  · exact congrArg (fun facts => ({ facts } : Checked))
      (UnusedFunction.factsOfFile_moved config file tree)

/-- What a rule says about a file is said of places in it. -/
theorem file_of_mem_check (builtin : r ∈ all) {W : Name → Prop} (config : Config)
    (file : SourceFile) (tree : Tree W) :
    ∀ v ∈ (r.check config file tree).violations, v.location.file = file.path := by
  rcases mem_all_iff.mp builtin with rfl | rfl
  · exact LongLine.file_of_mem_violationsFrom file.path config.maxLineLength config.tabWidth
  · intro v member
    cases member

theorem map_adjust_moved (config : Config) (r : Rule) (violations : List Violation) :
    (violations.map (·.moved move)).map (adjust config r) =
      (violations.map (adjust config r)).map (·.moved move) := by
  rw [List.map_map, List.map_map]
  rfl

theorem checkAdjusted_moved (builtin : r ∈ all) {W : Name → Prop} (config : Config)
    (file : SourceFile) (tree : Tree W) : checkAdjusted config (file.moved move) tree r =
      (checkAdjusted config file tree r).moved move := by
  rw [checkAdjusted, check_moved builtin]
  change Checked.mk ((List.map _ _).map _) _ _ = Checked.mk ((List.map _ _).map _) _ _
  rw [map_adjust_moved]
  rfl

/-- At the end the rules say the same where the same functions are unused. -/
theorem finishAll_moved {rules : List Rule} (builtin : ∀ r ∈ rules, r ∈ all) {config : Config}
    {bank bank' : Bank} (unused : UnusedFunction.unused config bank' =
      (UnusedFunction.unused config bank).map (·.moved move)) (loads : Nat) :
    finishAll ⟨config, bank', loads⟩ rules =
      (finishAll ⟨config, bank, loads⟩ rules).map (·.moved move) := by
  have each : ∀ r ∈ rules, r.finish ⟨config, bank', loads⟩ =
      (r.finish ⟨config, bank, loads⟩).map (·.moved move) := by
    intro r listed
    rcases List.mem_cons.mp (builtin r listed) with rfl | listed
    · rfl
    · obtain rfl := List.mem_singleton.mp listed
      change (UnusedFunction.unused config bank').map UnusedFunction.violation =
        ((UnusedFunction.unused config bank).map UnusedFunction.violation).map _
      rw [unused, List.map_map, List.map_map]
      rfl
  rw [finishAll, finishAll, List.map_flatMap, List.flatMap_def, List.flatMap_def]
  congr 1
  refine List.map_congr_left fun r listed => ?_
  rw [each r listed, map_adjust_moved]

end Rule

end SourceLint
