import Mathlib
import SourceLint.Proofs.Analysis.Configured
import SourceLint.Proofs.Discovery.Expansion

/-! # Which files are looked at

Where the spelling of the root holds no wildcards, a run looks at every source file below the
root once, and at nothing else. A root that holds some is taken for a pattern: then the files
of another directory may be looked at, or the run may fail.
-/

namespace SourceLint.Analysis

open Glob FileTree

/-- The file is checked, or reported as one that does not parse. -/
def Examines (a : Analysis) (tree : FileTree) (path : Path) : Prop :=
  let inspected := inspect tree a.fullRoot (a.outcome tree).config
    (a.enabledRules (a.outcome tree).config) path
  inspected.isOk = true ∨ inspected = .error (.unparsable path)

/-- The path is that of a source file below the root that no exclude leaves out, by a route on
which `entry` is found. -/
structure IsSource (a : Analysis) (tree sub : FileTree) (path : Path) (entry : FileTree) :
    Prop where
  route : ∃ names name, Leads sub (names ++ [name]) entry ∧ name.endsWith ".rs" = true ∧
    path = a.fullRoot.walked.descend (names ++ [name])
  kept : isExcluded (a.ownExcludes ++ (a.outcome tree).config.excludePatterns) path = false

variable {a : Analysis} {tree : FileTree} {path : Path}

/-- A file is examined when it can be read. -/
theorem examines_iff : a.Examines tree path ↔ ∃ content, tree.read path = .ok content := by
  rw [Examines, inspect, checkEach]
  cases tree.read path with
  | error e =>
      constructor
      · rintro (ok | unparsable)
        · cases ok
        · cases unparsable
      · rintro ⟨content, reads⟩
        cases reads
  | ok content =>
      refine iff_of_true ?_ ⟨content, rfl⟩
      dsimp only
      cases Source.parse? content with
      | none => exact .inr rfl
      | some syntaxTree => exact .inl rfl

section Root

variable {entries : List (String × FileTree)} (absolute : a.fullRoot.isAbsolute = true)
  (found : tree.find a.fullRoot = .ok (.directory entries))

include absolute found

theorem sources_plain (plain : a.fullRoot.IsPlain) (config : Config) : a.sources tree config =
    .ok ((sourcesBelow a.fullRoot.walked (.directory entries)).filter
      fun path => !isExcluded (a.ownExcludes ++ config.excludePatterns) path) := by
  rw [sources, discover_plain absolute found plain]
  rfl

theorem exists_sources (plain : a.fullRoot.IsPlain) :
    ∃ paths, a.sources tree (a.outcome tree).config = .ok paths ∧
      (∀ path, path ∈ paths ↔ ∃ entry, a.IsSource tree (.directory entries) path entry) ∧
      paths.Sublist ((contents a.fullRoot.walked (.directory entries)).map Prod.fst) := by
  refine ⟨_, sources_plain absolute found plain _, ?_,
    List.filter_sublist.trans (List.filter_sublist.map _)⟩
  intro path
  rw [List.mem_filter, mem_sourcesBelow_iff, Bool.not_eq_true']
  constructor
  · rintro ⟨⟨names, name, last, leads, named, route⟩, kept⟩
    exact ⟨last, ⟨names, name, leads, named, route⟩, kept⟩
  · rintro ⟨last, ⟨names, name, leads, named, route⟩, kept⟩
    exact ⟨⟨names, name, last, leads, named, route⟩, kept⟩

theorem IsSource.find (proper : Proper (.directory entries)) {entry : FileTree}
    (source : a.IsSource tree (.directory entries) path entry) : tree.find path = .ok entry := by
  obtain ⟨⟨names, name, leads, _, rfl⟩, _⟩ := source
  exact find_descend (find_walked absolute found) proper leads (by simp)

end Root

/-- Two routes do not lead to one path, however it is spelled. -/
theorem nodup_components {dir : Path} {t : FileTree} (absolute : dir.isAbsolute = true)
    (proper : Proper t) :
    (((t.contents dir).map Prod.fst).map Path.components).Nodup := by
  refine List.Nodup.map_on ?_ (nodup_contents dir t proper)
  intro p inside q inside' same
  obtain ⟨⟨_, name⟩, listed, rfl⟩ := List.mem_map.mp inside
  obtain ⟨⟨_, name'⟩, listed', rfl⟩ := List.mem_map.mp inside'
  obtain ⟨names, last, leads, rfl⟩ := (mem_contents dir _ name t).mp listed
  obtain ⟨names', last', leads', rfl⟩ := (mem_contents dir _ name' t).mp listed'
  have routes :=
    Path.names_eq_of_components absolute (leads.isName proper) (leads'.isName proper) same
  dsimp only
  rw [routes]

/-- A run looks at every source file below the root once, and at nothing else. -/
structure Examination (a : Analysis) (tree sub : FileTree) : Prop where
  root : a.fullRoot.walked.components = a.fullRoot.components
  run : ∃ paths, a.run tree false = a.conclude tree (a.outcome tree)
      (a.enabledRules (a.outcome tree).config) paths ∧
    (paths.map Path.components).Nodup ∧
    (∀ path, path ∈ paths ↔ ∃ entry, a.IsSource tree sub path entry) ∧
    ∀ path, path ∈ paths ∧ a.Examines tree path ↔ ∃ bytes content,
      a.IsSource tree sub path (.file bytes) ∧ String.fromUTF8? bytes = some content

/-- From an absolute root whose spelling holds no wildcards exactly the source files below it are
looked at. -/
theorem run_examines (a : Analysis) (tree : FileTree) {entries : List (String × FileTree)}
    (absolute : a.fullRoot.isAbsolute = true) (plain : a.fullRoot.IsPlain)
    (found : tree.find a.fullRoot = .ok (.directory entries))
    (proper : Proper (.directory entries)) : Examination a tree (.directory entries) where
  root := components_walked absolute
  run := by
    obtain ⟨paths, sources, members, inside⟩ := exists_sources absolute found plain
    refine ⟨paths, ?_, ?_, members, ?_⟩
    · rw [run_eq_runLoaded, runLoaded_of_ok sources]
    · exact (inside.map _).nodup (nodup_components (isAbsolute_walked absolute) proper)
    · intro path
      rw [examines_iff, members]
      constructor
      · rintro ⟨⟨entry, source⟩, content, reads⟩
        rw [read_of_find (source.find absolute found proper), text_eq_ok_iff] at reads
        obtain ⟨bytes, rfl, text⟩ := reads
        exact ⟨bytes, content, source, text⟩
      · rintro ⟨bytes, content, source, text⟩
        refine ⟨⟨_, source⟩, content, ?_⟩
        rw [read_of_find (source.find absolute found proper)]
        exact text_eq_ok_iff.mpr ⟨bytes, rfl, text⟩

/-- All rules on the project at a path. -/
def ofProject (root : String) : Analysis :=
  { directory := ⟨"/"⟩, root := ⟨root⟩, rules := Rule.all }

/-- Two projects, of which one is called by what looks like a pattern for the other. -/
def twins : FileTree :=
  .directory [("p[q]", .directory [("a.rs", .ofText "")]),
    ("pq", .directory [("b.rs", .ofText "")])]

theorem proper_twins : Proper (.directory [("b.rs", .ofText "")]) := by
  refine .directory (by simp) ?_ ?_
  · intro e member
    cases List.mem_singleton.mp member
    exact ⟨by simp [Path.IsPiece], by decide⟩
  · intro e member
    cases List.mem_singleton.mp member
    exact .file _

/-- From the plain root its own file is looked at. -/
theorem run_examines_twins : (ofProject "pq").fullRoot.isAbsolute = true ∧
    (ofProject "pq").fullRoot.IsPlain ∧
    twins.find (ofProject "pq").fullRoot = .ok (.directory [("b.rs", .ofText "")]) ∧
    Proper (.directory [("b.rs", .ofText "")]) ∧
    Examination (ofProject "pq") twins (.directory [("b.rs", .ofText "")]) ∧
    (ofProject "pq").sources twins {} = .ok [⟨"/pq/b.rs"⟩] := by
  have root : (ofProject "pq").fullRoot = ⟨"/pq"⟩ := by cbv
  have absolute : (ofProject "pq").fullRoot.isAbsolute = true := by cbv
  have plain : (ofProject "pq").fullRoot.IsPlain := by
    rw [root]
    decide
  have found : twins.find (ofProject "pq").fullRoot = .ok (.directory [("b.rs", .ofText "")]) := by
    rw [root]
    rfl
  exact ⟨absolute, plain, found, proper_twins, run_examines _ _ absolute plain found proper_twins,
    by cbv⟩

/-- From the other root the file of its twin is looked at and not its own, and a root with an open
bracket fails the run. -/
theorem sources_twins : (ofProject "p[q]").fullRoot.isAbsolute = true ∧
    twins.find (ofProject "p[q]").fullRoot = .ok (.directory [("a.rs", .ofText "")]) ∧
    (ofProject "p[q]").sources twins {} = .ok [⟨"/pq/b.rs"⟩] ∧
    (ofProject "p[").sources (.directory [("p[", .directory [("a.rs", .ofText "")])]) {} =
      .error (.badRoot ⟨2, .openClass⟩) := by
  have root : (ofProject "p[q]").fullRoot = ⟨"/p[q]"⟩ := by cbv
  refine ⟨by cbv, ?_, by cbv, by cbv⟩
  rw [root]
  rfl

end SourceLint.Analysis
