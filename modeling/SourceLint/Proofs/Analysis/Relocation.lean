import SourceLint.Proofs.Analysis.Degradation
import SourceLint.Proofs.Analysis.Examined
import SourceLint.Proofs.Analysis.Renaming
import SourceLint.Proofs.Discovery.Excludes
import SourceLint.Proofs.Glob.Floating
import SourceLint.Proofs.Path.Below

/-! # A project in two places

The same project may lie at one root or at another. The two runs come to the same but for the
root in the paths of what they find, unless an exclude matches one of the files by what stands
above a root. The exclude for what a build leaves behind does so wherever a directory above is
called by the name of the one it is meant for.
-/

namespace SourceLint.Analysis

open Glob FileTree

open SourceLint.Path (IsName ofNames)

/-- The project lies at the root of the analysis, whose spelling holds no wildcards. -/
structure Hosts (a : Analysis) (tree : FileTree) (project : List (String × FileTree)) : Prop where
  absolute : a.fullRoot.isAbsolute = true
  plain : a.fullRoot.IsPlain
  found : tree.find a.fullRoot = .ok (.directory project)

theorem Hosts.of_fullRoot {a : Analysis} {tree : FileTree} {project : List (String × FileTree)}
    {root : Path} (spelled : a.fullRoot = root) (absolute : root.isAbsolute = true)
    (plain : root.IsPlain) (found : tree.find root = .ok (.directory project)) :
    a.Hosts tree project := by
  subst spelled
  exact ⟨absolute, plain, found⟩

/-- All globs for files to leave out. -/
def allExcludes (a : Analysis) (config : Config) : List String :=
  a.ownExcludes ++ config.excludePatterns

/-- The names lead to what is called by the name of a source file. -/
def LeadToSource (project : List (String × FileTree)) (names : List String) : Prop :=
  ∃ front name last, names = front ++ [name] ∧ Leads (.directory project) names last ∧
    name.endsWith ".rs" = true

/-- No exclude matches a source file of the project by what stands above the root alone. -/
def Spares (a : Analysis) (config : Config) (project : List (String × FileTree)) : Prop :=
  ∀ names, LeadToSource project names →
    isExcluded (a.allExcludes config) (a.fullRoot.walked.descend names) = true →
    isExcluded (a.allExcludes config) (ofNames names) = true

variable {a : Analysis} {tree tree' : FileTree} {project : List (String × FileTree)}
  {config : Config} {names : List String}

theorem LeadToSource.ne_nil (leads : LeadToSource project names) : names ≠ [] := by
  obtain ⟨front, name, _, rfl, _⟩ := leads
  simp

theorem LeadToSource.isName (proper : Proper (.directory project))
    (leads : LeadToSource project names) : ∀ s ∈ names, IsName s := by
  obtain ⟨_, _, _, _, leads, _⟩ := leads
  exact leads.isName proper

/-! ## What stands above the root -/

section Above

variable (hosts : a.Hosts tree project) (proper : ∀ s ∈ names, IsName s) (some : names ≠ [])

include hosts proper some

/-- An exclude for every depth matches what it matches below the root. -/
theorem isExcluded_descend (floating : ∀ p ∈ a.allExcludes config, IsFloating p)
    (excluded : isExcluded (a.allExcludes config) (ofNames names) = true) :
    isExcluded (a.allExcludes config) (a.fullRoot.walked.descend names) = true := by
  obtain ⟨front, lead⟩ := Path.exists_lead (isAbsolute_walked hosts.absolute)
  have text : (a.fullRoot.walked.descend names).text = front ++ "/" ++ (ofNames names).text := by
    rw [← Path.join_ofNames _ proper some, Path.text_join (Path.not_isAbsolute_ofNames proper),
      lead]
  rw [isExcluded, text]
  exact matchesAny_below floating excluded front

/-- Whether a file is one of tests is settled by its names below the root. -/
theorem isTest_under (content : String) :
    (SourceFile.under a.fullRoot (a.fullRoot.walked.descend names) content).isTest =
      (ofNames names).isTest := by
  rw [SourceFile.isTest, SourceFile.under, Path.stripRoot_descend
    (isAbsolute_walked hosts.absolute) (components_walked hosts.absolute) proper some]
  rfl

/-- What is below a directory called by that name is excluded, be the directory in the project or
above it. -/
theorem isExcluded_insidePattern {name : String} (named : IsName name)
    (wildless : ∀ c ∈ name.toList, isWild c = false) :
    isExcluded [insidePattern name] (a.fullRoot.walked.descend names) = true ↔
      .normal name ∈ a.fullRoot.components ∨ name ∈ names.dropLast := by
  have absolute := isAbsolute_walked hosts.absolute
  rw [isExcluded, matchesAny_insidePattern wildless named.piece, Path.pieces_descend _ proper some,
    List.dropLast_append_of_ne_nil some, List.mem_append, ← Path.mem_components_iff absolute named,
    components_walked hosts.absolute]

end Above

theorem isExcluded_insidePattern_ofNames {name : String} (named : IsName name)
    (wildless : ∀ c ∈ name.toList, isWild c = false) (proper : ∀ s ∈ names, IsName s)
    (some : names ≠ []) :
    isExcluded [insidePattern name] (ofNames names) = true ↔ name ∈ names.dropLast := by
  rw [isExcluded, matchesAny_insidePattern wildless named.piece,
    Path.pieces_ofNames (fun s member => (proper s member).piece) some]

/-! ## Excludes for directories -/

/-- The exclude is for all that is in directories of that name. -/
structure IsForDirectories (exclude name : String) : Prop where
  spelled : exclude = insidePattern name
  named : IsName name
  wildless : ∀ c ∈ name.toList, isWild c = false

section Directories

variable (hosts : a.Hosts tree project) (proper : Proper (.directory project))

include hosts proper

/-- Such excludes spare a project above which no directory has one of their names. -/
theorem spares_of_directories (free : ∀ p ∈ a.allExcludes config, ∃ name,
    IsForDirectories p name ∧ .normal name ∉ a.fullRoot.components) : a.Spares config project := by
  intro names leads excluded
  have named := leads.isName proper
  obtain ⟨p, member, excluded⟩ := isExcluded_iff.mp excluded
  obtain ⟨name, ⟨rfl, proper', wildless⟩, above⟩ := free p member
  rw [isExcluded_insidePattern hosts named leads.ne_nil proper' wildless] at excluded
  refine isExcluded_iff.mpr ⟨_, member, ?_⟩
  rw [isExcluded_insidePattern_ofNames proper' wildless named leads.ne_nil]
  exact excluded.resolve_left above

/-- Below a directory that has one of their names nothing is left of a project. -/
theorem sources_of_directories {p name : String} (member : p ∈ a.allExcludes config)
    (directories : IsForDirectories p name) (above : .normal name ∈ a.fullRoot.components) :
    a.sources tree config = .ok [] := by
  obtain ⟨rfl, proper', wildless⟩ := directories
  rw [sources_plain hosts.absolute hosts.found hosts.plain config]
  refine congrArg Except.ok (List.filter_eq_nil_iff.mpr fun path listed => ?_)
  obtain ⟨front, last, _, route, _, rfl⟩ := mem_sourcesBelow_iff.mp listed
  have matched := (isExcluded_insidePattern hosts (route.isName proper) (by simp) proper'
    wildless).mpr (.inl above)
  have excluded := isExcluded_iff.mpr ⟨_, member, matched⟩
  rw [allExcludes] at excluded
  rw [excluded]
  exact Bool.false_ne_true

end Directories

/-! ## Two roots -/

/-- Where a file of the project lies when the project lies at another root. -/
def relocate (a : Analysis) (directory root : Path) : Path → Path :=
  Path.moved a.fullRoot (a.placedAt directory root).fullRoot.walked

variable {directory root : Path}

theorem relocate_descend (absolute : a.fullRoot.isAbsolute = true)
    (proper : ∀ s ∈ names, IsName s) (some : names ≠ []) :
    a.relocate directory root (a.fullRoot.walked.descend names) =
      (a.placedAt directory root).fullRoot.walked.descend names :=
  Path.moved_descend (isAbsolute_walked absolute) (components_walked absolute) proper some

theorem allExcludes_placedAt (a : Analysis) (directory root : Path) (config : Config) :
    (a.placedAt directory root).allExcludes config = a.allExcludes config :=
  rfl

section Two

variable (hosts : a.Hosts tree project) (hosts' : (a.placedAt directory root).Hosts tree' project)
  (proper : Proper (.directory project))

include hosts hosts' proper

theorem mirrors_relocate {paths : List Path} (sources : ∀ path ∈ paths, ∃ names,
    LeadToSource project names ∧ path = a.fullRoot.walked.descend names) :
    Mirrors (a.relocate directory root) tree tree' a.fullRoot
      (a.placedAt directory root).fullRoot paths := by
  have absolute := isAbsolute_walked hosts.absolute
  have absolute' := isAbsolute_walked hosts'.absolute
  have moved {names : List String} (leads : LeadToSource project names) :
      a.relocate directory root (a.fullRoot.walked.descend names) =
        (a.placedAt directory root).fullRoot.walked.descend names :=
    relocate_descend hosts.absolute (leads.isName proper) leads.ne_nil
  constructor
  · constructor
    · intro p first q second
      obtain ⟨names, leads, rfl⟩ := sources p first
      obtain ⟨names', leads', rfl⟩ := sources q second
      rw [moved leads, moved leads', Path.compare_descend absolute (leads.isName proper)
        (leads'.isName proper), Path.compare_descend absolute' (leads.isName proper)
        (leads'.isName proper)]
    · intro p first q second same
      obtain ⟨names, leads, rfl⟩ := sources p first
      obtain ⟨names', leads', rfl⟩ := sources q second
      rw [Path.names_eq_of_components absolute (leads.isName proper) (leads'.isName proper) same]
  · intro p listed
    obtain ⟨names, leads, rfl⟩ := sources p listed
    obtain ⟨_, _, last, _, route, _⟩ := id leads
    have here := find_walked hosts.absolute hosts.found
    have there := find_walked hosts'.absolute hosts'.found
    rw [moved leads, read_of_find (find_descend here proper route leads.ne_nil),
      read_of_find (find_descend there proper route leads.ne_nil)]
  · intro p listed content
    obtain ⟨names, leads, rfl⟩ := sources p listed
    rw [moved leads, SourceFile.under, SourceFile.under,
      Path.stripRoot_descend absolute (components_walked hosts.absolute) (leads.isName proper)
        leads.ne_nil,
      Path.stripRoot_descend absolute' (components_walked hosts'.absolute) (leads.isName proper)
        leads.ne_nil, SourceFile.moved, moved leads]
    rfl

/-- Where neither root has a part in what is excluded the same files are looked at. -/
theorem exists_sources_relocate (floating : ∀ p ∈ a.allExcludes config, IsFloating p)
    (spares : a.Spares config project)
    (spares' : (a.placedAt directory root).Spares config project) :
    ∃ paths, a.sources tree config = .ok paths ∧
      (a.placedAt directory root).sources tree' config =
        .ok (paths.map (a.relocate directory root)) ∧
      ∀ path ∈ paths, ∃ names, LeadToSource project names ∧
        path = a.fullRoot.walked.descend names := by
  have carries : Carries (a.relocate directory root) a.fullRoot.walked
      (a.placedAt directory root).fullRoot.walked :=
    fun names named some => relocate_descend hosts.absolute named some
  have leads : ∀ path ∈ sourcesBelow a.fullRoot.walked (.directory project), ∃ names,
      LeadToSource project names ∧ path = a.fullRoot.walked.descend names := by
    intro path listed
    obtain ⟨front, name, last, route, named, rfl⟩ := mem_sourcesBelow_iff.mp listed
    exact ⟨_, ⟨front, name, last, rfl, route, named⟩, rfl⟩
  have excluded : ∀ path ∈ sourcesBelow a.fullRoot.walked (.directory project),
      isExcluded (a.allExcludes config) (a.relocate directory root path) =
        isExcluded (a.allExcludes config) path := by
    intro path listed
    obtain ⟨names, leads, rfl⟩ := leads path listed
    have named := leads.isName proper
    rw [relocate_descend hosts.absolute named leads.ne_nil, Bool.eq_iff_iff]
    constructor
    · intro there
      have beneath := spares' names leads there
      exact isExcluded_descend hosts named leads.ne_nil floating beneath
    · intro here
      have beneath := spares names leads here
      rw [← allExcludes_placedAt a directory root] at floating beneath ⊢
      exact isExcluded_descend hosts' named leads.ne_nil floating beneath
  refine ⟨_, sources_plain hosts.absolute hosts.found hosts.plain config, ?_, ?_⟩
  · rw [sources_plain hosts'.absolute hosts'.found hosts'.plain config,
      sourcesBelow_carried carries proper, List.filter_map]
    refine congrArg (fun paths => Except.ok (List.map _ paths)) (List.filter_congr ?_)
    intro path listed
    exact congrArg Bool.not (excluded path listed)
  · exact fun path listed => leads path (List.mem_filter.mp listed).1

/-- With one configuration the runs come to the same, given that neither root has a part in what
is excluded. -/
theorem runWith_placedAt (builtin : ∀ r ∈ a.rules, r ∈ Rule.all)
    (floating : ∀ p ∈ a.allExcludes config, IsFloating p) (spares : a.Spares config project)
    (spares' : (a.placedAt directory root).Spares config project) :
    (a.placedAt directory root).runWith tree' config =
      movedBy (a.relocate directory root) (·.moved (a.relocate directory root))
        (a.runWith tree config) := by
  obtain ⟨paths, sources, sources', leads⟩ :=
    exists_sources_relocate hosts hosts' proper floating spares spares'
  rw [runWith_of_ok sources, runWith_of_ok sources']
  exact conclude_moved builtin (mirrors_relocate hosts hosts' proper leads)

end Two

/-- A document in memory is the same wherever the project lies. -/
theorem outcome_placedAt (inMemory : ∀ path, a.document ≠ .file path) (tree tree' : FileTree)
    (directory root : Path) :
    (a.placedAt directory root).outcome tree' = a.outcome tree := by
  rw [outcome, outcome, load, load]
  change Document.load _ a.document = _
  cases document : a.document with
  | absent => rfl
  | text path content => rfl
  | file path => exact absurd document (inMemory path)

/-- What becomes of a run when the project is moved to another root. -/
structure Relocation (a : Analysis) (directory root : Path) (tree tree' : FileTree)
    (project : List (String × FileTree)) : Prop where
  /-- What lies below the one root is moved to where it lies below the other. -/
  moves (names : List String) (proper : ∀ s ∈ names, IsName s) (some : names ≠ []) :
    a.relocate directory root (a.fullRoot.walked.descend names) =
      (a.placedAt directory root).fullRoot.walked.descend names
  /-- Nothing above the root makes a file one of tests. -/
  tests (names : List String) (proper : ∀ s ∈ names, IsName s) (some : names ≠ [])
    (content : String) :
    (SourceFile.under a.fullRoot (a.fullRoot.walked.descend names) content).isTest =
      (ofNames names).isTest
  /-- Where no exclude matches by what stands above a root alone, both runs say the same of the
  configuration and find the same, but for the root. -/
  run (spares : a.Spares (a.outcome tree).config project)
    (spares' : (a.placedAt directory root).Spares (a.outcome tree).config project) :
    a.run tree false = (a.runWith tree (a.outcome tree).config).map
        (Report.after (a.outcome tree).diagnostics) ∧
      (a.placedAt directory root).run tree' false =
        (movedBy (a.relocate directory root) (·.moved (a.relocate directory root))
          (a.runWith tree (a.outcome tree).config)).map (Report.after (a.outcome tree).diagnostics)
  /-- Excludes for directories match nothing by what stands above the root, unless a directory
  there has one of their names. -/
  spares (free : ∀ p ∈ a.allExcludes (a.outcome tree).config, ∃ name,
      IsForDirectories p name ∧ .normal name ∉ a.fullRoot.components) :
    a.Spares (a.outcome tree).config project
  /-- Where one has, they leave nothing of the project. -/
  swallows {p name : String} (member : p ∈ a.allExcludes (a.outcome tree).config)
    (directories : IsForDirectories p name) (above : .normal name ∈ a.fullRoot.components) :
    a.sources tree (a.outcome tree).config = .ok []

/-- With excludes for every depth and a configuration in memory a project is looked at in the same
way wherever it lies, so long as no exclude matches what stands above it. -/
theorem run_relocates (a : Analysis) (directory root : Path) (tree tree' : FileTree)
    {project : List (String × FileTree)} (builtin : ∀ r ∈ a.rules, r ∈ Rule.all)
    (inMemory : ∀ path, a.document ≠ .file path)
    (floating : ∀ p ∈ a.allExcludes (a.outcome tree).config, IsFloating p)
    (proper : Proper (.directory project)) (hosts : a.Hosts tree project)
    (hosts' : (a.placedAt directory root).Hosts tree' project) :
    Relocation a directory root tree tree' project where
  moves names named some := relocate_descend hosts.absolute named some
  tests names named some := isTest_under hosts named some
  run spares spares' := by
    have outcome := outcome_placedAt inMemory tree tree' directory root
    rw [run_eq_runLoaded, run_eq_runLoaded, outcome, runLoaded_eq, runLoaded_eq,
      runWith_placedAt hosts hosts' proper builtin floating spares spares']
    exact ⟨rfl, rfl⟩
  spares := spares_of_directories hosts proper
  swallows := sources_of_directories hosts proper

/-- A configuration that leaves generated files out. -/
def generatedSettings : String :=
  "<config><Analyzer><Exclude pattern='**/gen/**'/></Analyzer></config>"

theorem config_generatedSettings : (LoadOutcome.ofText ⟨"lint.xml"⟩ generatedSettings).config =
    { analyzer := some ⟨none, [⟨"**/gen/**", some ⟨1, 19⟩⟩], some ⟨1, 9⟩⟩
      position := some ⟨1, 1⟩ } := by
  decide +kernel

/-- All rules on a project of which a part is generated. -/
def besideGenerated : Analysis :=
  { ofProject "p" with document := .text ⟨"lint.xml"⟩ generatedSettings }

theorem config_besideGenerated (tree : FileTree) : (besideGenerated.outcome tree).config =
    { analyzer := some ⟨none, [⟨"**/gen/**", some ⟨1, 19⟩⟩], some ⟨1, 9⟩⟩
      position := some ⟨1, 1⟩ } :=
  config_generatedSettings

theorem allExcludes_besideGenerated (tree : FileTree) :
    besideGenerated.allExcludes (besideGenerated.outcome tree).config =
      [insidePattern "target", insidePattern "gen"] := by
  rw [config_besideGenerated]
  rfl

def generatedProject : List (String × FileTree) :=
  [("a.rs", .ofText "fn f() {}"), ("gen", .directory [("b.rs", .ofText "fn g() {}")])]

theorem proper_generatedProject : Proper (.directory generatedProject) := by
  have single {name : String} {t : FileTree} (named : IsName name) (proper : Proper t) :
      Proper (.directory [(name, t)]) :=
    .directory (by simp) (by simpa using named) (by simpa using proper)
  have named : IsName "a.rs" ∧ IsName "b.rs" ∧ IsName "gen" :=
    ⟨⟨by simp [Path.IsPiece], by decide⟩, ⟨by simp [Path.IsPiece], by decide⟩,
      by simp [Path.IsPiece], by decide⟩
  refine .directory (by simp [generatedProject]) ?_ ?_
  · simpa [generatedProject] using ⟨named.1, named.2.2⟩
  · simpa [generatedProject] using ⟨.file _, single named.2.1 (.file _)⟩

/-- The file system in which that project lies at one root. -/
def generatedHere : FileTree :=
  .directory [("p", .directory generatedProject)]

/-- The one in which it lies at another. -/
def generatedThere : FileTree :=
  .directory [("work", .directory [("q", .directory generatedProject)])]

/-- Neither of the two roots has a part in what is excluded: the same file is looked at, and the
generated one left out. -/
theorem run_besideGenerated : (∀ r ∈ besideGenerated.rules, r ∈ Rule.all) ∧
    (∀ path, besideGenerated.document ≠ .file path) ∧
    (∀ p ∈ besideGenerated.allExcludes (besideGenerated.outcome generatedHere).config,
      IsFloating p) ∧
    Proper (.directory generatedProject) ∧ besideGenerated.Hosts generatedHere generatedProject ∧
    (besideGenerated.placedAt ⟨"/work"⟩ ⟨"q"⟩).Hosts generatedThere generatedProject ∧
    Relocation besideGenerated ⟨"/work"⟩ ⟨"q"⟩ generatedHere generatedThere generatedProject ∧
    besideGenerated.Spares (besideGenerated.outcome generatedHere).config generatedProject ∧
    (besideGenerated.placedAt ⟨"/work"⟩ ⟨"q"⟩).Spares
      (besideGenerated.outcome generatedHere).config generatedProject ∧
    besideGenerated.sources generatedHere (besideGenerated.outcome generatedHere).config =
      .ok [⟨"/p/a.rs"⟩] := by
  have root : besideGenerated.fullRoot = ⟨"/p"⟩ := by cbv
  have root' : (besideGenerated.placedAt ⟨"/work"⟩ ⟨"q"⟩).fullRoot = ⟨"/work/q"⟩ := by cbv
  have builtin : ∀ r ∈ besideGenerated.rules, r ∈ Rule.all := fun r member => member
  have inMemory : ∀ path, besideGenerated.document ≠ .file path := by
    intro path file
    cases file
  have floating : ∀ p ∈ besideGenerated.allExcludes (besideGenerated.outcome generatedHere).config,
      IsFloating p := by
    rw [allExcludes_besideGenerated]
    simp [isFloating_insidePattern]
  have hosts : besideGenerated.Hosts generatedHere generatedProject :=
    .of_fullRoot root (by cbv) (by decide) rfl
  have hosts' : (besideGenerated.placedAt ⟨"/work"⟩ ⟨"q"⟩).Hosts generatedThere
      generatedProject :=
    .of_fullRoot root' (by cbv) (by decide) rfl
  have proper := proper_generatedProject
  have directories {exclude : String} (member : exclude ∈ besideGenerated.allExcludes
      (besideGenerated.outcome generatedHere).config) :
      IsForDirectories exclude "target" ∨ IsForDirectories exclude "gen" := by
    rw [allExcludes_besideGenerated, List.mem_cons, List.mem_singleton] at member
    refine member.imp (fun spelled => ⟨spelled, ⟨?_, by decide⟩, ?_⟩) fun spelled =>
      ⟨spelled, ⟨?_, by decide⟩, ?_⟩
    · simp [Path.IsPiece]
    · exact (show Path.IsPlain ⟨"target"⟩ by decide)
    · simp [Path.IsPiece]
    · exact (show Path.IsPlain ⟨"gen"⟩ by decide)
  refine ⟨builtin, inMemory, floating, proper, hosts, hosts',
    run_relocates _ _ _ _ _ builtin inMemory floating proper hosts hosts',
    spares_of_directories hosts proper ?_, spares_of_directories hosts' proper ?_, ?_⟩
  · intro p member
    rw [root]
    rcases directories member with here | here
    · exact ⟨_, here, by decide⟩
    · exact ⟨_, here, by decide⟩
  · intro p member
    rw [root']
    rcases directories member with here | here
    · exact ⟨_, here, by decide⟩
    · exact ⟨_, here, by decide⟩
  · rw [config_besideGenerated]
    cbv

/-- One project at two roots, the first of them in a directory called `target`. -/
def lodgers : FileTree :=
  .directory [("target", .directory [("p", .directory [("a.rs", .ofText "")])]),
    ("q", .directory [("a.rs", .ofText "")])]

/-- At the one root no file is looked at, at the other the one that there is. -/
theorem run_lodgers : (ofProject "target/p").Hosts lodgers [("a.rs", .ofText "")] ∧
    (ofProject "q").Hosts lodgers [("a.rs", .ofText "")] ∧
    (∀ p ∈ (ofProject "q").allExcludes {}, IsFloating p) ∧
    (∃ report, (ofProject "target/p").run lodgers false = .ok report ∧ report.filesChecked = 0) ∧
    ∃ report, (ofProject "q").run lodgers false = .ok report ∧ report.filesChecked = 1 := by
  have root : (ofProject "target/p").fullRoot = ⟨"/target/p"⟩ := by cbv
  have root' : (ofProject "q").fullRoot = ⟨"/q"⟩ := by cbv
  have none : (ofProject "target/p").sources lodgers {} = .ok [] := by cbv
  have one : (ofProject "q").sources lodgers {} = .ok [⟨"/q/a.rs"⟩] := by cbv
  refine ⟨.of_fullRoot root (by cbv) (by decide) rfl,
    .of_fullRoot root' (by cbv) (by decide) rfl, ?_, ?_, ?_⟩
  · intro p member
    cases List.mem_singleton.mp member
    exact isFloating_insidePattern "target"
  · have run : (ofProject "target/p").runWith lodgers {} =
        .ok (report {} 1 ((ofProject "target/p").enabledRules {}) []) := by
      rw [runWith_of_ok none]
      rfl
    exact ⟨_, run, rfl⟩
  · have reads : lodgers.read ⟨"/q/a.rs"⟩ = .ok "" := by decide +kernel
    obtain ⟨t, parses⟩ := Option.isSome_iff_exists.mp
      (show (Source.parse? "").isSome by decide +kernel)
    obtain ⟨c, inspected⟩ : ∃ c, inspect lodgers (ofProject "q").fullRoot {}
        ((ofProject "q").enabledRules {}) ⟨"/q/a.rs"⟩ = .ok c := by
      rw [inspect, checkEach, reads]
      dsimp only
      rw [parses]
      exact ⟨_, rfl⟩
    have run : (ofProject "q").runWith lodgers {} =
        .ok (report {} 1 ((ofProject "q").enabledRules {}) [c]) := by
      rw [runWith_of_ok one, conclude_eq (a := ofProject "q") (fun _ member => member),
        List.map_singleton, inspected]
      rfl
    exact ⟨_, run, rfl⟩

end SourceLint.Analysis
