import SourceLint.Proofs.Analysis.Configured
import SourceLint.Proofs.Rule.Relocation

/-! # Runs by other paths

Two runs that read the same files, each by paths of its own, come to the same result but for
those paths, as long as the paths compare as the others do.
-/

namespace SourceLint

variable {move : Path → Path}

def Diagnostic.moved (move : Path → Path) (d : Diagnostic) : Diagnostic :=
  { d with path := d.path.map move }

def Report.moved (move : Path → Path) (r : Report) : Report :=
  { r with diagnostics := r.diagnostics.map (·.moved move) }

namespace Facts

theorem defines_moved {f : Facts} {m : Mention} :
    (f.moved move).Defines m ↔ ∃ k, f.Defines k ∧ k.moved move = m := by
  simp only [defines_iff]
  exact List.mem_map

theorem uses_moved {f : Facts} {name : String} : (f.moved move).Uses name ↔ f.Uses name := by
  have named (mentions : List Mention) :
      (∃ m ∈ mentions.map (·.moved move), m.name = name) ↔ ∃ m ∈ mentions, m.name = name := by
    simp only [List.mem_map, exists_exists_and_eq_and]
    rfl
  simp only [uses_iff, moved, named]

end Facts

namespace Analysis

def Failure.moved (move : Path → Path) : Failure → Failure
  | unreadable path e => unreadable (move path) e
  | unparsable path => unparsable (move path)
  | failure => failure

/-- The same result by other paths, given what becomes of one that is no failure. -/
def movedBy {A : Type} (move : Path → Path) (f : A → A) (result : Except Failure A) :
    Except Failure A :=
  (result.map f).mapError (Failure.moved move)

theorem movedBy_eq_ok_iff {A : Type} {f : A → A} {result : Except Failure A} {found : A} :
    movedBy move f result = .ok found ↔ ∃ before, result = .ok before ∧ f before = found := by
  cases result with
  | error failure =>
      constructor
      · intro same
        cases same
      · rintro ⟨_, same, _⟩
        cases same
  | ok before =>
      constructor
      · intro same
        exact ⟨before, rfl, Except.ok.inj same⟩
      · rintro ⟨_, same, rfl⟩
        cases same
        rfl

/-! ## Files -/

/-- What one run reads at some paths another reads at the paths that they are moved to, and both
see it at one place below their roots. -/
structure Mirrors (move : Path → Path) (tree tree' : FileTree) (root root' : Path)
    (paths : List Path) : Prop extends Renames move paths where
  read : ∀ path ∈ paths, tree'.read (move path) = tree.read path
  under : ∀ path ∈ paths, ∀ content,
    SourceFile.under root' (move path) content = (SourceFile.under root path content).moved move

section Files

variable {tree tree' : FileTree} {root root' : Path} {config : Config} {rules : List Rule}
  {paths : List Path}

theorem checkEach_moved (builtin : ∀ r ∈ rules, r ∈ Rule.all)
    (mirrors : Mirrors move tree tree' root root' paths) {path : Path} (listed : path ∈ paths) :
    checkEach tree' root' config rules (move path) =
      movedBy move (List.map (·.moved move)) (checkEach tree root config rules path) := by
  rw [checkEach, checkEach, mirrors.read path listed]
  cases tree.read path with
  | error e => rfl
  | ok content =>
      dsimp only
      cases Source.parse? content with
      | none => rfl
      | some syntaxTree =>
          dsimp only
          rw [mirrors.under path listed]
          refine congrArg Except.ok ?_
          rw [List.map_map]
          exact List.map_congr_left fun r member =>
            Rule.checkAdjusted_moved (builtin r member) config _ syntaxTree

theorem inspect_moved (builtin : ∀ r ∈ rules, r ∈ Rule.all)
    (mirrors : Mirrors move tree tree' root root' paths) :
    (paths.map move).map (inspect tree' root' config rules) =
      (paths.map (inspect tree root config rules)).map (movedBy move (·.moved move)) := by
  rw [List.map_map, List.map_map]
  refine List.map_congr_left fun path listed => ?_
  change (checkEach _ _ _ _ _).map _ = movedBy _ _ ((checkEach _ _ _ _ _).map _)
  rw [checkEach_moved builtin mirrors listed]
  cases checkEach tree root config rules path with
  | error failure => rfl
  | ok all => exact congrArg Except.ok (Checked.moved_join all).symm

end Files

theorem failure?_moved {A : Type} (f : A → A) (strict : Bool) (results : List (Except Failure A)) :
    failure? strict (results.map (movedBy move f)) =
      (failure? strict results).map (Failure.moved move) := by
  induction results with
  | nil => rfl
  | cons result rest ih =>
      cases result with
      | ok found => exact ih
      | error failure =>
          have fails : (failure.moved move).fails strict = failure.fails strict := by
            cases failure <;> rfl
          change (if (failure.moved move).fails strict then some (failure.moved move)
            else failure? strict (rest.map (movedBy move f))) = Option.map _
              (if failure.fails strict then some failure else failure? strict rest)
          rw [fails, ih]
          split <;> rfl

theorem successes_moved {A : Type} (f : A → A) (results : List (Except Failure A)) :
    successes (results.map (movedBy move f)) = (successes results).map f := by
  induction results with
  | nil => rfl
  | cons result rest ih =>
      cases result with
      | error failure => exact ih
      | ok found => exact congrArg (f found :: ·) ih

/-! ## Findings -/

theorem le_moved {paths : List Path} (renames : Renames move paths) {v w : Violation}
    (first : v.location.file ∈ paths) (second : w.location.file ∈ paths) :
    Diagnostic.le (.ofViolation (v.moved move)) (.ofViolation (w.moved move)) =
      Diagnostic.le (.ofViolation v) (.ofViolation w) := by
  change ((compare (move v.location.file) (move w.location.file)).then _).isLE =
    ((compare v.location.file w.location.file).then _).isLE
  rw [renames.compare_eq _ first _ second]
  rfl

theorem findings_moved {paths : List Path} (renames : Renames move paths)
    {violations : List Violation} (inside : ∀ v ∈ violations, v.location.file ∈ paths) :
    findings (violations.map (·.moved move)) = (findings violations).map (·.moved move) := by
  have diagnostics : (violations.map (·.moved move)).map Diagnostic.ofViolation =
      (violations.map Diagnostic.ofViolation).map (·.moved move) := by
    rw [List.map_map, List.map_map]
    rfl
  rw [findings, findings, diagnostics]
  refine (List.map_mergeSort ?_).symm
  intro d first e second
  obtain ⟨v, found, rfl⟩ := List.mem_map.mp first
  obtain ⟨w, found', rfl⟩ := List.mem_map.mp second
  exact (le_moved renames (inside v found) (inside w found')).symm

/-! ## The run -/

/-- The analysis of another root. -/
def placedAt (a : Analysis) (directory root : Path) : Analysis :=
  { a with directory, root }

/-- What the rules that are switched on say about those of the files that parse. -/
def checkedFiles (a : Analysis) (tree : FileTree) (config : Config) (paths : List Path) :
    List Checked :=
  successes (paths.map (inspect tree a.fullRoot config (a.enabledRules config)))

/-- What is found is found in files that are looked at. -/
theorem file_of_mem_found {a : Analysis} (builtin : ∀ r ∈ a.rules, r ∈ Rule.all) (tree : FileTree)
    (config : Config) (paths : List Path) (loads : Nat) :
    ∀ v ∈ (a.checkedFiles tree config paths).flatMap (·.violations) ++
      Rule.finishAll ⟨config, bankOf (a.checkedFiles tree config paths), loads⟩
        (a.enabledRules config), v.location.file ∈ paths := by
  have rules : ∀ r ∈ a.enabledRules config, r ∈ Rule.all :=
    fun r enabled => mem_enabledRules builtin enabled
  intro v member
  rcases List.mem_append.mp member with inFile | atEnd
  · obtain ⟨path, listed, content, syntaxTree, r, enabled, w, own, rfl⟩ :=
      exists_check_of_mem_inspected inFile
    have place := Rule.file_of_mem_check (rules r enabled) config _ syntaxTree w own
    exact (show w.location.file = path from place) ▸ listed
  · obtain ⟨m, defined, place⟩ := (Rule.endsAll_finishAll _ _).location rules
      (holds_bankOf a tree config paths) atEnd
    exact place ▸ defined.file_mem builtin

section Run

variable {a : Analysis} {directory root : Path} {tree tree' : FileTree} {config : Config}
  {paths : List Path} (builtin : ∀ r ∈ a.rules, r ∈ Rule.all)
  (mirrors : Mirrors move tree tree' a.fullRoot (a.placedAt directory root).fullRoot paths)

include builtin mirrors

theorem exists_said_moved (p p' : Facts → Prop) (same : ∀ f : Facts, p' (f.moved move) ↔ p f) :
    (∃ path ∈ paths.map move, ∃ all, (a.placedAt directory root).said tree' config path = .ok all ∧
        ∃ c ∈ all, p' c.facts) ↔
      ∃ path ∈ paths, ∃ all, a.said tree config path = .ok all ∧ ∃ c ∈ all, p c.facts := by
  have said : ∀ path ∈ paths, (a.placedAt directory root).said tree' config (move path) =
      movedBy move (List.map (·.moved move)) (a.said tree config path) := fun path listed =>
    checkEach_moved (fun r enabled => mem_enabledRules builtin enabled) mirrors listed
  constructor
  · rintro ⟨_, moved, all, reads, c, inside, holds⟩
    obtain ⟨path, listed, rfl⟩ := List.mem_map.mp moved
    rw [said path listed, movedBy_eq_ok_iff] at reads
    obtain ⟨before, reads, rfl⟩ := reads
    obtain ⟨d, said, rfl⟩ := List.mem_map.mp inside
    exact ⟨path, listed, before, reads, d, said, (same d.facts).mp holds⟩
  · rintro ⟨path, listed, all, reads, c, inside, holds⟩
    refine ⟨move path, List.mem_map_of_mem listed, all.map (·.moved move), ?_, c.moved move,
      List.mem_map_of_mem inside, (same c.facts).mpr holds⟩
    rw [said path listed, reads]
    rfl

/-- What the bank of the other run holds. -/
theorem holds_moved :
    (bankOf ((a.placedAt directory root).checkedFiles tree' config (paths.map move))).Holds
      (fun m => ∃ k, Defines a tree config paths k ∧ k.moved move = m)
      (Uses a tree config paths) := by
  refine (holds_bankOf (a.placedAt directory root) tree' config (paths.map move)).congr ?_ ?_
  · intro m
    refine (exists_said_moved builtin mirrors (fun f => ∃ k, f.Defines k ∧ k.moved move = m)
      (·.Defines m) fun f => Facts.defines_moved).trans ?_
    constructor
    · rintro ⟨path, listed, all, reads, c, inside, k, defined, same⟩
      exact ⟨k, ⟨path, listed, all, reads, c, inside, defined⟩, same⟩
    · rintro ⟨k, ⟨path, listed, all, reads, c, inside, defined⟩, same⟩
      exact ⟨path, listed, all, reads, c, inside, k, defined, same⟩
  · exact fun name => exists_said_moved builtin mirrors (·.Uses name) (·.Uses name)
      fun f => Facts.uses_moved

theorem finishAll_placedAt (loads : Nat) :
    Rule.finishAll ⟨config, bankOf ((a.placedAt directory root).checkedFiles tree' config
        (paths.map move)), loads⟩ (a.enabledRules config) =
      (Rule.finishAll ⟨config, bankOf (a.checkedFiles tree config paths), loads⟩
        (a.enabledRules config)).map (·.moved move) := by
  refine Rule.finishAll_moved (fun r enabled => mem_enabledRules builtin enabled) ?_ loads
  exact UnusedFunction.unused_moved mirrors.toRenames (fun m defined => defined.file_mem builtin)
    (fun m n first second => first.name_eq builtin second) (holds_bankOf a tree config paths)
    (holds_moved builtin mirrors)

theorem inspections_moved : (paths.map move).map (inspect tree' (a.placedAt directory root).fullRoot
      config (a.enabledRules config)) =
    (paths.map (inspect tree a.fullRoot config (a.enabledRules config))).map
      (movedBy move (·.moved move)) :=
  inspect_moved (fun _ enabled => mem_enabledRules builtin enabled) mirrors

theorem checkedFiles_moved :
    (a.placedAt directory root).checkedFiles tree' config (paths.map move) =
      (a.checkedFiles tree config paths).map (·.moved move) :=
  (congrArg successes (inspections_moved builtin mirrors)).trans (successes_moved _ _)

theorem report_moved : report { config } 1 (a.enabledRules config)
      ((a.placedAt directory root).checkedFiles tree' config (paths.map move)) =
      (report { config } 1 (a.enabledRules config) (a.checkedFiles tree config paths)).moved
        move := by
  have violations : ((a.placedAt directory root).checkedFiles tree' config
        (paths.map move)).flatMap (·.violations) =
      ((a.checkedFiles tree config paths).flatMap (·.violations)).map (·.moved move) := by
    rw [checkedFiles_moved builtin mirrors, List.flatMap_map, List.map_flatMap]
    rfl
  have found := findings_moved mirrors.toRenames (file_of_mem_found builtin tree config paths 1)
  rw [List.map_append, ← violations, ← finishAll_placedAt builtin mirrors] at found
  change Report.mk (findings _) _ _ = Report.mk ((findings _).map (·.moved move)) _ _
  rw [found, checkedFiles_moved builtin mirrors, List.length_map]
  rfl

/-- By other paths the run comes to the same. -/
theorem conclude_moved : (a.placedAt directory root).conclude tree' { config }
    (a.enabledRules config) (paths.map move) =
      movedBy move (·.moved move) (a.conclude tree { config } (a.enabledRules config) paths) := by
  have fails : failure? a.strict ((paths.map move).map (inspect tree'
      (a.placedAt directory root).fullRoot config (a.enabledRules config))) =
        (failure? a.strict (paths.map (inspect tree a.fullRoot config
          (a.enabledRules config)))).map (Failure.moved move) := by
    rw [inspections_moved builtin mirrors, failure?_moved]
  cases failed : failure? a.strict (paths.map (inspect tree a.fullRoot config
      (a.enabledRules config))) with
  | none =>
      rw [failed] at fails
      have other : (a.placedAt directory root).conclude tree' { config } (a.enabledRules config)
          (paths.map move) = .ok (report { config } 1 (a.enabledRules config)
            ((a.placedAt directory root).checkedFiles tree' config (paths.map move))) :=
        conclude_of_fine (a := a.placedAt directory root) builtin { config } fails
      rw [other, report_moved builtin mirrors, conclude_of_fine builtin { config } failed]
      rfl
  | some failure =>
      rw [failed] at fails
      have other : (a.placedAt directory root).conclude tree' { config } (a.enabledRules config)
          (paths.map move) = .error (failure.moved move) :=
        conclude_of_failure (a := a.placedAt directory root) builtin { config } fails
      rw [other, conclude_of_failure builtin { config } failed]
      rfl

end Run

end Analysis

end SourceLint
