import SourceLint.Proofs.Analysis.Isolation
import SourceLint.Proofs.Discovery.Growth

/-! # Files that do not parse

A run that is not strict comes to the same however many files that do not parse are added to a
project, and with whatever new directories: the same report, and the same facts in the bank. What
such a directory must not do is open the way for a root that leads back up from it, or go by the
name of a source file. A strict run stops at a file that does not parse where all files before it
do, and otherwise comes to what a run that is not strict comes to.
-/

namespace SourceLint

open FileTree

open SourceLint.Path (IsName)

/-- What a run that is not strict gets to hear of the file at a path: nothing if it does not
parse. -/
def FileTree.heard (tree : FileTree) (path : Path) : Option (Except Analysis.Failure Parsed) :=
  match tree.parse path with
  | .error (.unparsable _) => none
  | result => some result

namespace Analysis

variable {a : Analysis} {tree tree' : FileTree} {config : Config} {paths : List Path} {path : Path}

/-! ## What is heard of files -/

theorem parsed?_eq_toOption (tree : FileTree) (path : Path) :
    tree.parsed? path = (tree.parse path).toOption := by
  rw [FileTree.parsed?, FileTree.parse]
  cases tree.read path with
  | error e => rfl
  | ok content =>
      dsimp only
      cases Source.parse? content <;> rfl

theorem parse_of_prose {content : String} (reads : tree.read path = .ok content)
    (prose : Source.parse? content = none) : tree.parse path = .error (.unparsable path) := by
  rw [FileTree.parse, reads]
  dsimp only
  rw [prose]

theorem heard_eq_none {content : String} (reads : tree.read path = .ok content)
    (prose : Source.parse? content = none) : tree.heard path = none := by
  rw [FileTree.heard, parse_of_prose reads prose]

theorem heard_congr (same : tree'.read path = tree.read path) :
    tree'.heard path = tree.heard path := by
  rw [FileTree.heard, FileTree.heard, FileTree.parse, FileTree.parse, same]

/-- What is not heard does not fail a run that is not strict. -/
theorem failure?_heard (tree : FileTree) (paths : List Path) :
    failure? false (paths.filterMap tree.heard) = failure? false (paths.map tree.parse) := by
  induction paths with
  | nil => rfl
  | cons path rest ih =>
      rw [List.filterMap_cons, List.map_cons, FileTree.heard]
      cases tree.parse path with
      | ok f => exact ih
      | error failure =>
          cases failure with
          | unparsable p => exact ih
          | _ => rfl

/-- All files that parse are heard of. -/
theorem successes_heard (tree : FileTree) (paths : List Path) :
    successes (paths.filterMap tree.heard) = parsed tree paths := by
  rw [successes, parsed, List.filterMap_filterMap]
  refine List.filterMap_congr fun path _ => ?_
  rw [parsed?_eq_toOption, FileTree.heard]
  cases tree.parse path with
  | ok f => rfl
  | error failure => cases failure <;> rfl

/-- What a run that is not strict gets to hear of the source files. -/
def heard (a : Analysis) (tree : FileTree) (config : Config) :
    Except Failure (List (Except Failure Parsed)) :=
  (a.sources tree config).map (·.filterMap tree.heard)

theorem heard_eq (a : Analysis) (tree : FileTree) (config : Config) : a.heard tree config =
    ((discover tree a.fullRoot (a.ownExcludes ++ config.excludePatterns)).map
      (·.filterMap tree.heard)).mapError .badRoot := by
  rw [heard, sources]
  cases discover tree a.fullRoot (a.ownExcludes ++ config.excludePatterns) <;> rfl

/-! ## What is added -/

/-- A file that does not parse is added somewhere, or an empty directory for more of them. -/
inductive Adds (a : Analysis) : FileTree → FileTree → Prop where
  | file {tree tree' : FileTree} {name content : String} {bytes : ByteArray} (named : IsName name)
    (text : String.fromUTF8? bytes = some content) (prose : Source.parse? content = none)
    (gains : Gains name (.file bytes) tree tree') : Adds a tree tree'
  | directory {tree tree' : FileTree} {name : String} (named : IsName name)
    (other : name.endsWith ".rs" = false) (stands : a.fullRoot.Stands tree)
    (gains : Gains name (.directory []) tree tree') : Adds a tree tree'

theorem Adds.proper (adds : a.Adds tree tree') (proper : Proper tree) : Proper tree' := by
  cases adds with
  | file named text prose gains => exact gains.proper named (.file _) proper
  | directory named other stands gains =>
      exact gains.proper named (.directory (by simp) (by simp) (by simp)) proper

/-- What is there already stays there, with the text it has. -/
theorem Adds.read {t : FileTree} (adds : a.Adds tree tree') (found : tree.find path = .ok t) :
    tree'.read path = tree.read path ∧ ∃ t', tree'.find path = .ok t' := by
  cases adds with
  | file _ _ _ gains =>
      obtain ⟨t', found', _⟩ := gains.find found
      exact ⟨gains.read found, t', found'⟩
  | directory _ _ _ gains =>
      obtain ⟨t', found', _⟩ := gains.find found
      exact ⟨gains.read found, t', found'⟩

/-- Of what is added nothing is heard. -/
theorem Adds.heard (adds : a.Adds tree tree') (proper : Proper tree) (config : Config) :
    a.heard tree' config = a.heard tree config := by
  have kept : ∀ path t, tree.find path = .ok t → tree'.heard path = tree.heard path :=
    fun path t found => heard_congr (adds.read found).1
  rw [heard_eq, heard_eq]
  congr 1
  cases adds with
  | file named text prose gains =>
      refine map_discover_file proper named kept gains fun path found => ?_
      exact heard_eq_none ((read_of_find found).trans (text_eq_ok_iff.mpr ⟨_, rfl, text⟩)) prose
  | directory named other stands gains =>
      exact map_discover_directory proper named kept gains other stands

section Run

variable (adds : Relation.ReflTransGen a.Adds tree tree')

include adds

theorem heard_of_adds (proper : Proper tree) (config : Config) :
    Proper tree' ∧ a.heard tree' config = a.heard tree config := by
  induction adds with
  | refl => exact ⟨proper, rfl⟩
  | tail _ adds ih => exact ⟨adds.proper ih.1, (adds.heard ih.1 config).trans ih.2⟩

theorem read_of_adds {t : FileTree} (found : tree.find path = .ok t) :
    tree'.read path = tree.read path ∧ ∃ t', tree'.find path = .ok t' := by
  induction adds with
  | refl => exact ⟨rfl, t, found⟩
  | tail _ adds ih =>
      obtain ⟨same, t', found'⟩ := ih
      exact ⟨(adds.read found').1.trans same, (adds.read found').2⟩

/-- The configuration is what it was, unless it is a file that was missing. -/
theorem outcome_of_adds (there : ∀ path, a.document = .file path →
    ∃ t, tree.find (a.directory.join path) = .ok t) : a.outcome tree' = a.outcome tree := by
  rw [outcome, outcome, load, load]
  cases document : a.document with
  | absent => rfl
  | text path content => rfl
  | file path =>
      obtain ⟨t, found⟩ := there path document
      rw [Document.load, Document.load, (read_of_adds adds found).1]

end Run

/-! ## Runs that are not strict -/

/-- The analysis, strict or not. -/
def strictly (a : Analysis) (strict : Bool) : Analysis :=
  { a with strict }

/-- The bank at the end of a run. -/
def finalBank (a : Analysis) (tree : FileTree) : Except Failure Bank :=
  (a.sources tree (a.outcome tree).config).map fun paths => bankOf (successes (paths.map
    (inspect tree a.fullRoot (a.outcome tree).config (a.enabledRules (a.outcome tree).config))))

theorem runLoaded_lenient (builtin : ∀ r ∈ a.rules, r ∈ Rule.all) (lenient : a.strict = false)
    (outcome : LoadOutcome) : a.runLoaded tree outcome =
      (a.heard tree outcome.config).bind fun heard =>
        match failure? false heard with
        | some failure => .error failure
        | none => .ok (reportOf outcome (successes heard).length
            (a.foundWith outcome.config (successes heard))) := by
  rw [heard]
  cases found : a.sources tree outcome.config with
  | error failure =>
      rw [runLoaded, found]
      rfl
  | ok paths =>
      rw [runLoaded_eq_reportOf builtin found, lenient, ← failure?_heard, ← successes_heard]
      rfl

/-- Runs that are not strict come to the same if they hear the same. -/
theorem run_lenient_congr (builtin : ∀ r ∈ a.rules, r ∈ Rule.all) (lenient : a.strict = false)
    (configured : a.outcome tree' = a.outcome tree)
    (same : a.heard tree' (a.outcome tree).config = a.heard tree (a.outcome tree).config) :
    a.run tree' false = a.run tree false := by
  rw [run_eq_runLoaded, run_eq_runLoaded, configured, runLoaded_lenient builtin lenient,
    runLoaded_lenient builtin lenient, same]

theorem finalBank_eq (a : Analysis) (tree : FileTree) : a.finalBank tree =
    (a.heard tree (a.outcome tree).config).map fun heard => bankBy a.fullRoot
      (a.outcome tree).config (a.enabledRules (a.outcome tree).config) (successes heard) := by
  rw [finalBank, heard]
  cases a.sources tree (a.outcome tree).config with
  | error failure => rfl
  | ok paths =>
      dsimp only [Except.map]
      rw [bankOf_inspected, successes_heard]
      rfl

/-- The result is that of a run that looks at one file after the other: to the letter where every
file goes by one path, and else but for the spelling of paths. -/
def IsResult (a : Analysis) (tree : FileTree) (result other : Except Failure Report) : Prop :=
  Alike result other ∧
    ((∀ paths, a.sources tree (a.outcome tree).config = .ok paths → SpelledOnce paths) →
      result = other)

theorem Reaches.isResult (builtin : ∀ r ∈ a.rules, r ∈ Rule.all) {workers : Nat} {s : State}
    {result : Except Failure Report} (reaches : Reaches a tree workers (a.start false) s)
    (returned : s.stage = .returned result) (never : s.cancelled = false) :
    a.IsResult tree result (a.run tree false) := by
  have sound := reaches.sound builtin
  cases sound with
  | returned expected =>
      cases returned
      rcases expected with ⟨_, set⟩ | known
      · cases set.symm.trans never
      · exact known
  | _ => cases returned

/-- What is in the bank under every schedule are the facts of the files that were there before. -/
theorem Reaches.exists_facts (builtin : ∀ r ∈ a.rules, r ∈ Rule.all) {workers : Nat}
    {cancelled : Bool} {s : State} {outcome : LoadOutcome}
    {results : List (Except Failure (List Violation))}
    (reaches : Reaches a tree' workers (a.start cancelled) s)
    (collecting : s.stage = .collecting outcome results)
    (same : a.heard tree' (a.outcome tree').config = a.heard tree (a.outcome tree').config) :
    ∃ paths, a.sources tree (a.outcome tree').config = .ok paths ∧
      HoldsFacts s.bank (a.fileFacts tree (a.outcome tree').config paths) := by
  have sound := reaches.sound builtin
  cases sound with
  | @collecting _ _ bank paths' sources holds =>
      cases collecting
      have held := holdsFacts_of_holds holds
      rw [heard, heard, sources] at same
      cases found : a.sources tree (a.outcome tree').config with
      | error failure =>
          rw [found] at same
          cases same
      | ok paths =>
          rw [found] at same
          have files : parsed tree' paths' = parsed tree paths := by
            rw [← successes_heard, ← successes_heard]
            exact congrArg successes (Except.ok.inj same)
          rw [fileFacts, files] at held
          exact ⟨paths, rfl, held⟩
  | _ => cases collecting

/-! ## Strict runs -/

/-- The source file at a path does not parse, and all before it do. -/
def StopsAt (a : Analysis) (tree : FileTree) (path : Path) : Prop :=
  ∃ before after, a.sources tree (a.outcome tree).config = .ok (before ++ path :: after) ∧
    (∀ p ∈ before, ∃ f, tree.parse p = .ok f) ∧ tree.parse path = .error (.unparsable path)

theorem path_eq_of_unparsable {p : Path} (failed : tree.parse path = .error (.unparsable p)) :
    p = path := by
  rw [FileTree.parse] at failed
  split at failed
  · cases failed
  · split at failed <;> cases failed
    rfl

/-- Where a strict run does not stop at a file that does not parse, strictness does not matter. -/
theorem failure?_true_cases {A : Type} (results : List (Except Failure A)) :
    (∃ before path after, results = before ++ .error (.unparsable path) :: after ∧
      ∀ r ∈ before, ∃ x, r = .ok x) ∨ failure? true results = failure? false results := by
  induction results with
  | nil => exact .inr rfl
  | cons result rest ih =>
      cases result with
      | ok x =>
          rcases ih with ⟨before, path, after, rfl, fine⟩ | same
          · refine .inl ⟨.ok x :: before, path, after, rfl, ?_⟩
            simpa using fine
          · exact .inr same
      | error failure =>
          cases failure with
          | unparsable path => exact .inl ⟨[], path, rest, rfl, by simp⟩
          | _ => exact .inr rfl

theorem stopsAt_or_eq (sources : a.sources tree (a.outcome tree).config = .ok paths) :
    (∃ path, a.StopsAt tree path) ∨
      failure? true (paths.map tree.parse) = failure? false (paths.map tree.parse) := by
  refine (failure?_true_cases (paths.map tree.parse)).imp_left ?_
  rintro ⟨_, p, _, split, fine⟩
  obtain ⟨before, _, rfl, rfl, rest⟩ := List.map_eq_append_iff.mp split
  obtain ⟨path, after, rfl, failed, rfl⟩ := List.map_eq_cons_iff.mp rest
  obtain rfl := path_eq_of_unparsable failed
  exact ⟨_, before, after, sources, fun q member => fine _ (List.mem_map_of_mem member), failed⟩

theorem run_strictly (builtin : ∀ r ∈ a.rules, r ∈ Rule.all)
    (sources : a.sources tree (a.outcome tree).config = .ok paths) (strict : Bool) :
    (a.strictly strict).run tree false =
      match failure? strict (paths.map tree.parse) with
      | some failure => .error failure
      | none => .ok (reportOf (a.outcome tree) (parsed tree paths).length
          (a.foundWith (a.outcome tree).config (parsed tree paths))) :=
  runLoaded_eq_reportOf (a := a.strictly strict) builtin sources

/-- Of files that can be read those are counted that parse. -/
theorem exists_filesChecked (builtin : ∀ r ∈ a.rules, r ∈ Rule.all)
    (sources : a.sources tree (a.outcome tree).config = .ok paths)
    (reads : ∀ path ∈ paths, ∃ content, tree.read path = .ok content) :
    ∃ report, (a.strictly false).run tree false = .ok report ∧
      report.filesChecked = (parsed tree paths).length := by
  have run := run_strictly builtin sources false
  rw [failure?_false_parse_eq_none_iff.mpr reads] at run
  exact ⟨_, run, rfl⟩

/-- Files that do not parse leave no trace. -/
structure Traceless (a : Analysis) (tree : FileTree) : Prop where
  /-- The configuration is what it was unless it is a file that was missing. -/
  configured {tree' : FileTree} (adds : Relation.ReflTransGen a.Adds tree tree')
    (there : ∀ path, a.document = .file path → ∃ t, tree.find (a.directory.join path) = .ok t) :
    a.outcome tree' = a.outcome tree
  /-- A run that is not strict comes to the same however many files that do not parse are added. -/
  lenient {tree' : FileTree} (adds : Relation.ReflTransGen a.Adds tree tree')
    (configured : a.outcome tree' = a.outcome tree) :
    (a.strictly false).run tree' false = (a.strictly false).run tree false
  /-- So do the facts at its end. -/
  bank {tree' : FileTree} (adds : Relation.ReflTransGen a.Adds tree tree')
    (configured : a.outcome tree' = a.outcome tree) : a.finalBank tree' = a.finalBank tree
  /-- It is the same under every schedule. -/
  schedule {tree' : FileTree} (adds : Relation.ReflTransGen a.Adds tree tree')
    (configured : a.outcome tree' = a.outcome tree) {workers : Nat} {s : State}
    {result : Except Failure Report}
    (reaches : Reaches (a.strictly false) tree' workers ((a.strictly false).start false) s)
    (returned : s.stage = .returned result) (never : s.cancelled = false) :
    a.IsResult tree' result ((a.strictly false).run tree false)
  /-- When the workers are done the bank holds the facts of the files that were there before. -/
  facts {tree' : FileTree} (adds : Relation.ReflTransGen a.Adds tree tree')
    (configured : a.outcome tree' = a.outcome tree) {workers : Nat} {s : State}
    {outcome : LoadOutcome} {results : List (Except Failure (List Violation))}
    (reaches : Reaches (a.strictly false) tree' workers ((a.strictly false).start false) s)
    (collecting : s.stage = .collecting outcome results) :
    ∃ paths, a.sources tree (a.outcome tree).config = .ok paths ∧
      HoldsFacts s.bank (a.fileFacts tree (a.outcome tree).config paths)
  /-- A strict run stops at a file that does not parse where all before it do. -/
  stops {path : Path} (stops : a.StopsAt tree path) :
    (a.strictly true).run tree false = .error (.unparsable path)
  /-- There is such a file where all can be read and some do not parse: the first of those. -/
  readable {paths : List Path} (sources : a.sources tree (a.outcome tree).config = .ok paths)
    (reads : ∀ path ∈ paths, ∃ content, tree.read path = .ok content)
    (prose : ∃ path ∈ paths, tree.parse path = .error (.unparsable path)) :
    ∃ path, a.StopsAt tree path
  /-- Otherwise it comes to what a run that is not strict comes to. -/
  otherwise (never : ∀ path, ¬ a.StopsAt tree path) :
    (a.strictly true).run tree false = (a.strictly false).run tree false
  /-- That is so under every schedule. -/
  strictSchedule {workers : Nat} {s : State} {result : Except Failure Report}
    (reaches : Reaches (a.strictly true) tree workers ((a.strictly true).start false) s)
    (returned : s.stage = .returned result) (never : s.cancelled = false) :
    a.IsResult tree result ((a.strictly true).run tree false)

/-- With the rules there are, files that do not parse leave no trace in a run that is not strict,
and stop a strict run that comes to them. -/
theorem run_traceless (a : Analysis) (tree : FileTree) (builtin : ∀ r ∈ a.rules, r ∈ Rule.all)
    (proper : Proper tree) : Traceless a tree := by
  have lenient {tree' : FileTree} (adds : Relation.ReflTransGen a.Adds tree tree')
      (configured : a.outcome tree' = a.outcome tree) :
      (a.strictly false).run tree' false = (a.strictly false).run tree false := by
    have heard := (heard_of_adds adds proper (a.outcome tree).config).2
    exact run_lenient_congr (a := a.strictly false) builtin rfl configured heard
  constructor
  · exact outcome_of_adds
  · exact lenient
  · intro tree' adds configured
    rw [finalBank_eq, finalBank_eq, configured, (heard_of_adds adds proper _).2]
  · intro tree' adds configured workers s result reaches returned never
    rw [← lenient adds configured]
    exact Reaches.isResult (a := a.strictly false) builtin reaches returned never
  · intro tree' adds configured workers s outcome results reaches collecting
    have heard := (heard_of_adds adds proper (a.outcome tree').config).2
    rw [← configured]
    exact Reaches.exists_facts (a := a.strictly false) builtin reaches collecting heard
  · rintro path ⟨before, after, sources, fine, failed⟩
    refine run_of_first (a := a.strictly true) builtin sources ?_ failed rfl
    refine failure?_eq_none_iff.mpr fun failure member => ?_
    obtain ⟨p, listed, failed⟩ := List.mem_map.mp member
    obtain ⟨f, parses⟩ := fine p listed
    cases parses.symm.trans failed
  · rintro paths sources reads ⟨path, listed, failed⟩
    rcases stopsAt_or_eq sources with stops | same
    · exact stops
    · rw [failure?_false_parse_eq_none_iff.mpr reads, failure?_eq_none_iff] at same
      cases same _ (List.mem_map.mpr ⟨path, listed, failed⟩)
  · intro never
    cases sources : a.sources tree (a.outcome tree).config with
    | error failure =>
        exact (run_of_error (a := a.strictly true) sources).trans
          (run_of_error (a := a.strictly false) sources).symm
    | ok paths =>
        rcases stopsAt_or_eq sources with ⟨path, stops⟩ | same
        · exact absurd stops (never path)
        · rw [run_strictly builtin sources, run_strictly builtin sources, same]
  · exact Reaches.isResult (a := a.strictly true) builtin

theorem proper_oneFile : Proper oneFile := by
  have inner : Proper (.directory [("a.rs", .ofText "fn f() {}")]) := by
    refine .directory (by simp) ?_ ?_
    · intro e member
      cases List.mem_singleton.mp member
      exact ⟨by simp [Path.IsPiece], by decide⟩
    · intro e member
      cases List.mem_singleton.mp member
      exact .file _
  refine .directory (by simp) ?_ ?_
  · intro e member
    cases List.mem_singleton.mp member
    exact ⟨by simp [Path.IsPiece], by decide⟩
  · intro e member
    cases List.mem_singleton.mp member
    exact inner

/-- A run over the file that parses does not notice the one that has come beside it. A strict run
does. -/
theorem run_oneFile_besideProse : (∀ r ∈ allRules.rules, r ∈ Rule.all) ∧ Proper oneFile ∧
    Traceless allRules oneFile ∧ allRules.Adds oneFile besideProse ∧
    (allRules.strictly false).run besideProse false = (allRules.strictly false).run oneFile false ∧
    (allRules.strictly true).run besideProse false = .error (.unparsable ⟨"/p/b.rs"⟩) := by
  have prose : Source.parse? "fn (" = none := Option.isNone_iff_eq_none.mp (by decide +kernel)
  have gains : Gains "b.rs" (.ofText "fn (") oneFile besideProse :=
    @Gains.inside _ _ [] [] "p" _ _ (@Gains.here _ _ [("a.rs", .ofText "fn f() {}")] [] (by decide))
  have adds : allRules.Adds oneFile besideProse :=
    .file ⟨by simp [Path.IsPiece], by decide⟩ (by decide +kernel) prose gains
  have traceless := run_traceless allRules oneFile (fun r member => member) proper_oneFile
  have traceless' := run_traceless allRules besideProse (fun r member => member)
    (adds.proper proper_oneFile)
  refine ⟨fun r member => member, proper_oneFile, traceless, adds,
    traceless.lenient (.single adds) rfl, traceless'.stops ?_⟩
  have sources : allRules.sources besideProse (allRules.outcome besideProse).config =
      .ok ([⟨"/p/a.rs"⟩] ++ ⟨"/p/b.rs"⟩ :: []) := by cbv
  refine ⟨_, _, sources, fun p member => ?_, ?_⟩
  · obtain rfl := List.mem_singleton.mp member
    have reads : besideProse.read ⟨"/p/a.rs"⟩ = .ok "fn f() {}" := by decide +kernel
    obtain ⟨t, parses⟩ := Option.isSome_iff_exists.mp
      (show (Source.parse? "fn f() {}").isSome by decide +kernel)
    rw [FileTree.parse, reads]
    dsimp only
    rw [parses]
    exact ⟨_, rfl⟩
  · exact parse_of_prose (by decide +kernel) prose

/-- A project in which a file does not parse and the bytes of a later one are no text. -/
def proseBesideBytes : FileTree :=
  .directory [("p", .directory [("a.rs", .ofText "fn ("), ("b.rs", .file ⟨#[255]⟩)])]

/-- A project with a new directory, in which a file does not parse. -/
def newDirectory : FileTree :=
  .directory [("p", .directory [("a.rs", .ofText "fn f() {}"),
    ("new", .directory [("x.rs", .ofText "fn (")])])]

/-- Where not all files can be read a strict run may still stop at one that does not parse, so that
it comes to something else than a run that is not strict. And a run whose root leads back up from a
directory that is not there finds nothing until there is a file in it. -/
theorem run_proseBesideBytes :
    allRules.sources proseBesideBytes {} = .ok [⟨"/p/a.rs"⟩, ⟨"/p/b.rs"⟩] ∧
    proseBesideBytes.read ⟨"/p/a.rs"⟩ = .ok "fn (" ∧ (Source.parse? "fn (").isNone ∧
    proseBesideBytes.read ⟨"/p/b.rs"⟩ = .error .notText ∧
    (allRules.strictly true).run proseBesideBytes false = .error (.unparsable ⟨"/p/a.rs"⟩) ∧
    (allRules.strictly false).run proseBesideBytes false =
      .error (.unreadable ⟨"/p/b.rs"⟩ .notText) ∧
    (∃ between, Gains "new" (.directory []) oneFile between ∧
      Gains "x.rs" (.ofText "fn (") between newDirectory) ∧
    (∃ report, ((ofProject "p/new/..").strictly false).run oneFile false = .ok report ∧
      report.filesChecked = 0) ∧
    ∃ report, ((ofProject "p/new/..").strictly false).run newDirectory false = .ok report ∧
      report.filesChecked = 1 := by
  have sources : allRules.sources proseBesideBytes {} = .ok [⟨"/p/a.rs"⟩, ⟨"/p/b.rs"⟩] := by cbv
  have reads : proseBesideBytes.read ⟨"/p/a.rs"⟩ = .ok "fn (" := by decide +kernel
  have prose : Source.parse? "fn (" = none := Option.isNone_iff_eq_none.mp (by decide +kernel)
  have unreadable : proseBesideBytes.read ⟨"/p/b.rs"⟩ = .error .notText := by decide +kernel
  refine ⟨sources, reads, by rw [prose]; rfl, unreadable, ?_, ?_, ?_, ?_, ?_⟩
  · have sources : (allRules.strictly true).sources proseBesideBytes {} =
        .ok ([] ++ ⟨"/p/a.rs"⟩ :: [⟨"/p/b.rs"⟩]) := sources
    exact run_of_first (a := allRules.strictly true) (fun r member => member) sources rfl
      (parse_of_prose reads prose) rfl
  · have sources : (allRules.strictly false).sources proseBesideBytes {} =
        .ok ([⟨"/p/a.rs"⟩] ++ ⟨"/p/b.rs"⟩ :: []) := sources
    refine run_of_first (a := allRules.strictly false) (fun r member => member) sources ?_
      (parse_eq_unreadable_iff.mpr unreadable) rfl
    refine failure?_false_parse_eq_none_iff.mpr fun path listed => ?_
    obtain rfl := List.mem_singleton.mp listed
    exact ⟨_, reads⟩
  · refine ⟨.directory [("p", .directory [("a.rs", .ofText "fn f() {}"), ("new", .directory [])])],
      ?_, ?_⟩
    · exact @Gains.inside _ _ [] [] "p" _ _
        (@Gains.here _ _ [("a.rs", .ofText "fn f() {}")] [] (by decide))
    · exact @Gains.inside _ _ [] [] "p" _ _
        (@Gains.inside _ _ [("a.rs", .ofText "fn f() {}")] [] "new" _ _
          (@Gains.here _ _ [] [] (by decide)))
  · have sources : (ofProject "p/new/..").sources oneFile
        ((ofProject "p/new/..").outcome oneFile).config = .ok [] := by decide +kernel
    exact exists_filesChecked (fun r member => member) sources (by simp)
  · have sources : (ofProject "p/new/..").sources newDirectory
        ((ofProject "p/new/..").outcome newDirectory).config =
          .ok [⟨"/p/new/../a.rs"⟩, ⟨"/p/new/../new/x.rs"⟩] := by cbv
    have counts :
        (parsed newDirectory [⟨"/p/new/../a.rs"⟩, ⟨"/p/new/../new/x.rs"⟩]).length = 1 := by
      decide +kernel
    rw [← counts]
    refine exists_filesChecked (fun r member => member) sources fun path listed => ?_
    rcases List.mem_cons.mp listed with rfl | listed
    · exact ⟨"fn f() {}", by decide +kernel⟩
    · obtain rfl := List.mem_singleton.mp listed
      exact ⟨"fn (", by decide +kernel⟩

end Analysis

end SourceLint
