import SourceLint.Proofs.Analysis.Completeness
import SourceLint.Proofs.Analysis.Examined

/-! # What fails a run

Whether a run over source files fails is settled by reading and parsing them: the rules have no
part in it. A run that is not strict puts up with every text, so that it fails where a source file
cannot be read, and nowhere else. What is called by the name of a source file need not be one: a
directory of that name fails the run, and so does a file whose bytes are no text.
-/

namespace SourceLint

/-- The file at a path, or what becomes of a run that needs it to parse. -/
def FileTree.parse (tree : FileTree) (path : Path) : Except Analysis.Failure Parsed :=
  match tree.read path with
  | .error e => .error (.unreadable path e)
  | .ok content =>
    match Source.parse? content with
    | none => .error (.unparsable path)
    | some syntaxTree => .ok ⟨path, content, syntaxTree⟩

namespace Analysis

variable {a : Analysis} {tree : FileTree} {paths : List Path} {path : Path}

/-! ## The failures among results -/

section Failures

variable {A : Type} {strict : Bool} {results : List (Except Failure A)} {failure : Failure}

theorem failure?_eq_none_iff : failure? strict results = none ↔
    ∀ f, .error f ∈ results → f.fails strict = false := by
  induction results with
  | nil => simp [failure?]
  | cons result rest ih =>
      cases result with
      | ok found => simpa [failure?] using ih
      | error first =>
          rw [failure?]
          cases fails : first.fails strict with
          | true => simp [fails]
          | false => simpa [fails] using ih

theorem failure?_append {before after : List (Except Failure A)}
    (fine : failure? strict before = none) :
    failure? strict (before ++ after) = failure? strict after := by
  induction before with
  | nil => rfl
  | cons result rest ih =>
      cases result with
      | ok found => exact ih fine
      | error first =>
          rw [failure?] at fine
          rw [List.cons_append, failure?]
          split at fine
          · cases fine
          · rename_i passes
            rw [if_neg passes, ih fine]

theorem failure?_first {before after : List (Except Failure A)}
    (fine : failure? strict before = none) (fails : failure.fails strict = true) :
    failure? strict (before ++ .error failure :: after) = some failure := by
  rw [failure?_append fine, failure?, if_pos fails]

end Failures

/-! ## Rules have no part in it -/

theorem inspect_eq (tree : FileTree) (root : Path) (config : Config) (rules : List Rule)
    (path : Path) : inspect tree root config rules path = (tree.parse path).map fun f =>
      Checked.join (rules.map
        (Rule.checkAdjusted config (SourceFile.under root f.path f.content) f.syntaxTree)) := by
  rw [inspect, checkEach, FileTree.parse]
  cases tree.read path with
  | error e => rfl
  | ok content =>
      dsimp only
      cases Source.parse? content with
      | none => rfl
      | some syntaxTree => rfl

theorem failure?_inspected (strict : Bool) (tree : FileTree) (root : Path) (config : Config)
    (rules : List Rule) (paths : List Path) :
    failure? strict (paths.map (inspect tree root config rules)) =
      failure? strict (paths.map tree.parse) := by
  -- The rules only come in where a file parses.
  have split : paths.map (inspect tree root config rules) =
      (paths.map tree.parse).map (·.map fun f => Checked.join (rules.map
        (Rule.checkAdjusted config (SourceFile.under root f.path f.content) f.syntaxTree))) := by
    rw [List.map_map]
    exact List.map_congr_left fun path _ => inspect_eq tree root config rules path
  rw [split, failure?_map]

theorem failure?_gathered (a : Analysis) (tree : FileTree) (paths : List Path) :
    failure? a.strict (a.gathered tree paths) = failure? a.strict (paths.map tree.parse) := by
  rw [← failure?_inspect, failure?_inspected]

/-! ## Lenient runs -/

theorem parse_eq_unreadable_iff {e : ReadError} :
    tree.parse path = .error (.unreadable path e) ↔ tree.read path = .error e := by
  rw [FileTree.parse]
  cases tree.read path with
  | error e' => simp
  | ok content =>
      dsimp only
      cases Source.parse? content <;> simp

/-- A text that does not parse fails strict runs alone. -/
theorem fails_false_of_parse {failure : Failure} (failed : tree.parse path = .error failure) :
    failure.fails false = true ↔ ∃ e, tree.read path = .error e ∧ failure = .unreadable path e := by
  rw [FileTree.parse] at failed
  cases reads : tree.read path with
  | error e =>
      rw [reads] at failed
      cases failed
      simp [Failure.fails]
  | ok content =>
      rw [reads] at failed
      dsimp only at failed
      split at failed
      · cases failed
        simp [Failure.fails]
      · cases failed

theorem failure?_false_parse_eq_none_iff : failure? false (paths.map tree.parse) = none ↔
    ∀ path ∈ paths, ∃ content, tree.read path = .ok content := by
  rw [failure?_eq_none_iff]
  constructor
  · intro passes path listed
    cases reads : tree.read path with
    | ok content => exact ⟨content, rfl⟩
    | error e =>
        have failed := parse_eq_unreadable_iff.mpr reads
        have passed := passes _ (List.mem_map.mpr ⟨path, listed, failed⟩)
        cases passed
  · intro reads failure member
    obtain ⟨path, listed, failed⟩ := List.mem_map.mp member
    obtain ⟨content, text⟩ := reads path listed
    rw [Bool.eq_false_iff, Ne, fails_false_of_parse failed]
    rintro ⟨e, unread, _⟩
    cases text.symm.trans unread

section Run

variable (builtin : ∀ r ∈ a.rules, r ∈ Rule.all)

include builtin

/-- A run over source files returns a report unless one of them fails it. -/
theorem exists_report_iff (sources : a.sources tree (a.outcome tree).config = .ok paths) :
    (∃ report, a.run tree false = .ok report) ↔
      failure? a.strict (paths.map tree.parse) = none := by
  rw [run_of_ok builtin sources, failure?_gathered]
  cases failure? a.strict (paths.map tree.parse) <;> simp

theorem run_of_first {before after : List Path} {failure : Failure}
    (sources : a.sources tree (a.outcome tree).config = .ok (before ++ path :: after))
    (fine : failure? a.strict (before.map tree.parse) = none)
    (failed : tree.parse path = .error failure) (fails : failure.fails a.strict = true) :
    a.run tree false = .error failure := by
  have first : failure? a.strict ((before ++ path :: after).map tree.parse) = some failure := by
    rw [List.map_append, List.map_cons, failed, failure?_first fine fails]
  rw [run_of_ok builtin sources, failure?_gathered, first]

/-- A run that nobody cancels comes to what one file after the other leads to. -/
theorem Reaches.alike {workers : Nat} {s : State} {result : Except Failure Report}
    (reaches : Reaches a tree workers (a.start false) s) (returned : s.stage = .returned result)
    (never : s.cancelled = false) : Alike result (a.run tree false) := by
  have sound := reaches.sound builtin
  cases sound with
  | returned expected =>
      cases returned
      rcases expected with ⟨_, set⟩ | ⟨alike, _⟩
      · cases set.symm.trans never
      · exact alike
  | _ => cases returned

/-- It returns a report under one schedule if it does so under another. -/
theorem Reaches.exists_report_iff {workers : Nat} {s : State} {result : Except Failure Report}
    (reaches : Reaches a tree workers (a.start false) s) (returned : s.stage = .returned result)
    (never : s.cancelled = false) :
    (∃ report, result = .ok report) ↔ ∃ report, a.run tree false = .ok report := by
  have alike := reaches.alike builtin returned never
  generalize a.run tree false = other at alike ⊢
  cases alike <;> simp

end Run

/-- What a run that is not strict puts up with, and what it does not. -/
structure Tolerance (a : Analysis) (tree : FileTree) : Prop where
  /-- A root that makes no pattern fails it. -/
  undiscovered {failure : Failure}
    (sources : a.sources tree (a.outcome tree).config = .error failure) :
    a.run tree false = .error failure
  /-- Otherwise it returns a report if all source files can be read, whatever they say. -/
  returns {paths : List Path} (sources : a.sources tree (a.outcome tree).config = .ok paths) :
    (∃ report, a.run tree false = .ok report) ↔
      ∀ path ∈ paths, ∃ content, tree.read path = .ok content
  /-- The first one that cannot be read fails it, and nothing is left of the findings in others. -/
  fails {before after : List Path} {path : Path} {e : ReadError}
    (sources : a.sources tree (a.outcome tree).config = .ok (before ++ path :: after))
    (reads : ∀ p ∈ before, ∃ content, tree.read p = .ok content)
    (unreadable : tree.read path = .error e) : a.run tree false = .error (.unreadable path e)
  /-- Below a root without wildcards these are the directories that are called by the name of a
  source file, and the files of such a name whose bytes are no text. -/
  below {entries : List (String × FileTree)} (absolute : a.fullRoot.isAbsolute = true)
    (plain : a.fullRoot.IsPlain) (found : tree.find a.fullRoot = .ok (.directory entries))
    (proper : FileTree.Proper (.directory entries)) :
    (∃ report, a.run tree false = .ok report) ↔
      ∀ path entry, a.IsSource tree (.directory entries) path entry →
        ∃ bytes content, entry = .file bytes ∧ String.fromUTF8? bytes = some content
  /-- It is the same under every schedule. -/
  schedule {workers : Nat} {s : State} {result : Except Failure Report}
    (reaches : Reaches a tree workers (a.start false) s) (returned : s.stage = .returned result)
    (never : s.cancelled = false) :
    (∃ report, result = .ok report) ↔ ∃ report, a.run tree false = .ok report

/-- With the rules there are, a run that is not strict fails where a source file cannot be read, and
nowhere else. -/
theorem run_tolerates (a : Analysis) (tree : FileTree) (builtin : ∀ r ∈ a.rules, r ∈ Rule.all)
    (lenient : a.strict = false) : Tolerance a tree := by
  have returns {paths : List Path}
      (sources : a.sources tree (a.outcome tree).config = .ok paths) :
      (∃ report, a.run tree false = .ok report) ↔
        ∀ path ∈ paths, ∃ content, tree.read path = .ok content := by
    rw [exists_report_iff builtin sources, lenient, failure?_false_parse_eq_none_iff]
  constructor
  · exact run_of_error
  · exact returns
  · intro before after path e sources reads unreadable
    refine run_of_first builtin sources ?_ (parse_eq_unreadable_iff.mpr unreadable) rfl
    rw [lenient, failure?_false_parse_eq_none_iff]
    exact reads
  · intro entries absolute plain found proper
    obtain ⟨paths, sources, members, _⟩ := exists_sources absolute found plain
    rw [returns sources]
    constructor
    · intro reads path entry source
      obtain ⟨content, text⟩ := reads path ((members path).mpr ⟨entry, source⟩)
      rw [FileTree.read_of_find (source.find absolute found proper),
        FileTree.text_eq_ok_iff] at text
      obtain ⟨bytes, file, text⟩ := text
      exact ⟨bytes, content, file, text⟩
    · intro texts path listed
      obtain ⟨entry, source⟩ := (members path).mp listed
      obtain ⟨bytes, content, file, text⟩ := texts path entry source
      refine ⟨content, ?_⟩
      rw [FileTree.read_of_find (source.find absolute found proper), FileTree.text_eq_ok_iff]
      exact ⟨bytes, file, text⟩
  · exact Reaches.exists_report_iff builtin

/-- A project in which one file parses and another is no program at all. -/
def besideProse : FileTree :=
  .directory [("p", .directory [("a.rs", .ofText "fn f() {}"), ("b.rs", .ofText "fn (")])]

/-- A file that does not parse is put up with. -/
theorem run_besideProse : (∀ r ∈ allRules.rules, r ∈ Rule.all) ∧ allRules.strict = false ∧
    Tolerance allRules besideProse ∧
    allRules.sources besideProse (allRules.outcome besideProse).config =
      .ok [⟨"/p/a.rs"⟩, ⟨"/p/b.rs"⟩] ∧
    (Source.parse? "fn (").isNone ∧ ∃ report, allRules.run besideProse false = .ok report := by
  have sources : allRules.sources besideProse (allRules.outcome besideProse).config =
      .ok [⟨"/p/a.rs"⟩, ⟨"/p/b.rs"⟩] := by cbv
  have tolerates := run_tolerates allRules besideProse (fun r member => member) rfl
  refine ⟨fun r member => member, rfl, tolerates, sources, by decide +kernel, ?_⟩
  refine (tolerates.returns sources).mpr fun path listed => ?_
  rcases List.mem_cons.mp listed with rfl | listed
  · exact ⟨"fn f() {}", by decide +kernel⟩
  · obtain rfl := List.mem_singleton.mp listed
    exact ⟨"fn (", by decide +kernel⟩

/-- A project in which a directory goes by the name of a source file. -/
def besideDirectory : FileTree :=
  .directory [("p", .directory [("a.rs", .ofText "fn f() {}"), ("b.rs", .directory [])])]

/-- One in which the bytes of a source file are no text. -/
def besideBytes : FileTree :=
  .directory [("p", .directory [("a.rs", .ofText "fn f() {}"), ("b.rs", .file ⟨#[255]⟩)])]

/-- Neither is put up with: both runs fail, and what there is to say about the file that parses is
lost. -/
theorem run_besideDirectory : allRules.strict = false ∧
    allRules.fullRoot.isAbsolute = true ∧ allRules.fullRoot.IsPlain ∧
    besideDirectory.find allRules.fullRoot =
      .ok (.directory [("a.rs", .ofText "fn f() {}"), ("b.rs", .directory [])]) ∧
    allRules.sources besideDirectory {} = .ok [⟨"/p/a.rs"⟩, ⟨"/p/b.rs"⟩] ∧
    (Source.parse? "fn f() {}").isSome ∧
    allRules.run besideDirectory false = .error (.unreadable ⟨"/p/b.rs"⟩ .isDirectory) ∧
    allRules.sources besideBytes {} = .ok [⟨"/p/a.rs"⟩, ⟨"/p/b.rs"⟩] ∧
    allRules.run besideBytes false = .error (.unreadable ⟨"/p/b.rs"⟩ .notText) := by
  have root : allRules.fullRoot = ⟨"/p"⟩ := by cbv
  have sources : allRules.sources besideDirectory {} = .ok ([⟨"/p/a.rs"⟩] ++ [⟨"/p/b.rs"⟩]) := by
    cbv
  have sources' : allRules.sources besideBytes {} = .ok ([⟨"/p/a.rs"⟩] ++ [⟨"/p/b.rs"⟩]) := by
    cbv
  have fine {tree : FileTree} (reads : tree.read ⟨"/p/a.rs"⟩ = .ok "fn f() {}") :
      failure? allRules.strict ([(⟨"/p/a.rs"⟩ : Path)].map tree.parse) = none := by
    refine failure?_false_parse_eq_none_iff.mpr fun path listed => ?_
    obtain rfl := List.mem_singleton.mp listed
    exact ⟨_, reads⟩
  refine ⟨rfl, by cbv, ?_, ?_, sources, by decide +kernel, ?_, sources', ?_⟩
  · rw [root]
    decide
  · rw [root]
    rfl
  · exact run_of_first (fun r member => member) sources (fine (by decide +kernel))
      (parse_eq_unreadable_iff.mpr (by decide +kernel)) rfl
  · exact run_of_first (fun r member => member) sources' (fine (by decide +kernel))
      (parse_eq_unreadable_iff.mpr (by decide +kernel)) rfl

end Analysis

end SourceLint
