import SourceLint.Proofs.Analysis.Uses
import SourceLint.Proofs.Rule.TestCode

/-! # Test code is not reported

Modules, functions, implementations and their functions can be test code. Whatever a project holds,
no function that is in such code, at any depth, is reported, and a project without the code has the
same reports. Any other item has its attributes ignored, and so has a file as a whole.
-/

namespace SourceLint

open Source

/-- The two ways to say that what has the attribute, or what it is in, is compiled for tests only. -/
def Source.onlyTests : List Attribute :=
  [⟨false, ["cfg"], "#[cfg(test)]"⟩, ⟨false, ["cfg"], "#![cfg(test)]"⟩]

/-- The file with nothing in place of the test code in it. -/
def Parsed.withoutTests (f : Parsed) : Parsed :=
  { f with syntaxTree := UnusedFunction.treeWithoutTests f.syntaxTree }

namespace UnusedFunction

theorem isTestCode_of_mem_onlyTests {attributes : List Attribute} {a : Attribute}
    (has : a ∈ attributes) (only : a ∈ onlyTests) : isTestCode attributes = true := by
  have conditions : ∀ a ∈ onlyTests, a.conditionsOnTest = true := by decide +kernel
  rw [isTestCode, Bool.or_eq_true]
  exact .inr (List.any_eq_true.mpr ⟨a, has, conditions a only⟩)

/-- No other function of the files has the name and the place of that one. -/
def HasOwnPlace (files : List Parsed) (f : Parsed)
    (d : Definition (IsWordOf (contentOf f.content))) : Prop :=
  ∀ g ∈ files, ∀ d' ∈ g.syntaxTree.definitions,
    mentionIn g.path d'.name = mentionIn f.path d.name →
      (⟨g, d'⟩ : (f : Parsed) × Definition (IsWordOf (contentOf f.content))) = ⟨f, d⟩

/-- The rule lets test code be, in a project of these files. -/
structure SparesTestCode (config : Config) (root : Path) (files : List Parsed) : Prop where
  /-- Whatever is reported is a function of one of the files that is in no test code. -/
  outside : ∀ found, MayReport config root files found → ∀ v ∈ found, ∃ f ∈ files,
    f.isTest root = false ∧ ∃ d ∈ f.syntaxTree.definitions,
      (∀ e ∈ d.around.items, isTest e = false) ∧ v = violation (mentionIn f.path d.name)
  /-- A function at any depth of a module, a function, an implementation or one of its functions
  that is compiled for tests only is not reported. -/
  spared : ∀ found, MayReport config root files found → ∀ f ∈ files,
    ∀ d ∈ f.syntaxTree.definitions, ∀ e ∈ d.around.items, canBeTest e.kind = true →
      (∃ a ∈ e.attributes, a ∈ onlyTests) → HasOwnPlace files f d →
        violation (mentionIn f.path d.name) ∉ found
  /-- Without their test code, the files define the functions that are in none. -/
  removed : ∀ f ∈ files, f.withoutTests.syntaxTree.definitions =
    f.syntaxTree.definitions.filter fun d => !d.around.items.any isTest
  /-- The same is reported without it. -/
  same : ∀ found, MayReport config root (files.map Parsed.withoutTests) found ↔
    MayReport config root files found

theorem mayReport_withoutTests {config : Config} {root : Path} {files : List Parsed}
    {found : List Violation} : MayReport config root (files.map Parsed.withoutTests) found ↔
      MayReport config root files found := by
  have facts (f : Parsed) :
      (f.withoutTests.checkedBy config root rule).facts = (f.checkedBy config root rule).facts := by
    rw [facts_checkedBy, facts_checkedBy]
    exact factsOfFile_treeWithoutTests config _ f.syntaxTree
  simp only [MayReport, Fills, List.flatMap_map, facts]

theorem finish_sparesTestCode (config : Config) (root : Path) (files : List Parsed) :
    SparesTestCode config root files where
  outside found reports v member := by
    obtain ⟨unused, rfl, sound, _⟩ := reports.exists_unused
    obtain ⟨m, inside, rfl⟩ := List.mem_map.mp member
    obtain ⟨f, file, looked, d, defined, recorded, rfl⟩ := (sound m inside).1
    obtain ⟨read, _⟩ := isRecorded_iff.mp recorded
    exact ⟨f, file, looked, d, defined, (isRead_iff.mp read).1, rfl⟩
  spared found reports f file d defined e around can only own member := by
    obtain ⟨a, has, only⟩ := only
    obtain ⟨g, file', looked, d', defined', recorded, same⟩ := (reports.isRecorded member).1
    cases own g file' d' defined' same
    obtain ⟨read, _⟩ := isRecorded_iff.mp recorded
    have outside := (isRead_iff.mp read).1 e around
    rw [isTest, can, isTestCode_of_mem_onlyTests has only] at outside
    cases outside
  removed f _ := definitions_treeWithoutTests f.syntaxTree
  same _ := mayReport_withoutTests

/-- A module of tests, with a function in a function, and a function outside of it. -/
def testModule : String :=
  "#[cfg(test)]\nmod m \x7b fn a() \x7b fn b() \x7b\x7d \x7d \x7d\nfn c() \x7b\x7d\n"

/-- The function that is innermost is not reported. -/
theorem finish_testModule : ∃ f : Parsed, f.content = testModule ∧
    parse? f.content = some f.syntaxTree ∧ SparesTestCode {} ⟨"."⟩ [f] ∧
    (f.syntaxTree.definitions.map fun d => d.name.text) = ["a", "b", "c"] ∧
    ∀ found, MayReport {} ⟨"."⟩ [f] found →
      violation ⟨"b", ⟨⟨"src/a.rs"⟩, 2, 21⟩⟩ ∉ found := by
  have reads : (parse? testModule).map (fun tree =>
      (tree.definitions.map fun d => d.name.text,
        decide (∃ d ∈ tree.definitions,
          (∃ e ∈ d.around.items, canBeTest e.kind = true ∧ ∃ a ∈ e.attributes, a ∈ onlyTests) ∧
            mentionIn ⟨"src/a.rs"⟩ d.name = ⟨"b", ⟨⟨"src/a.rs"⟩, 2, 21⟩⟩))) =
      some (["a", "b", "c"], true) := by
    decide +kernel
  obtain ⟨tree, parses, found⟩ := Option.map_eq_some_iff.mp reads
  obtain ⟨names, found⟩ := Prod.mk.inj found
  obtain ⟨d, defined, ⟨e, around, can, only⟩, here⟩ := of_decide_eq_true found
  let f : Parsed := ⟨⟨"src/a.rs"⟩, testModule, tree⟩
  have apart : (tree.definitions.map fun d => d.name.text).Nodup := by
    rw [names]
    decide
  have own : HasOwnPlace [f] f d := by
    intro g file d' defined' same
    obtain rfl := List.mem_singleton.mp file
    have name : d'.name.text = d.name.text := congrArg Mention.name same
    rw [List.inj_on_of_nodup_map apart defined' defined name]
  have spares := finish_sparesTestCode {} ⟨"."⟩ [f]
  refine ⟨f, rfl, parses, spares, names, fun found reports => ?_⟩
  rw [← here]
  exact spares.spared found reports f (List.mem_singleton_self f) d defined e around can only own

/-! ## Marks that are ignored -/

/-- The function is compiled for tests only, because of something around it or the whole file. -/
def isOnlyTests {W : Name → Prop} (tree : Tree W) (d : Definition W) : Bool :=
  tree.attributes.any (· ∈ onlyTests) ||
    d.around.items.any fun e => e.attributes.any (· ∈ onlyTests)

/-- A file by itself has a function that is compiled for tests only, and that may be reported. -/
def MayReportTest (text : String) (m : Mention) : Prop :=
  ∃ f : Parsed, f.content = text ∧ parse? f.content = some f.syntaxTree ∧ f.isTest ⟨"."⟩ = false ∧
    (∃ d ∈ f.syntaxTree.definitions, isOnlyTests f.syntaxTree d = true ∧
      mentionIn f.path d.name = m) ∧
    ∃ found, MayReport {} ⟨"."⟩ [f] found ∧ violation m ∈ found

theorem mayReportTest_of_parse? {text : String} {m : Mention} (file : Path)
    (looked : (SourceFile.under ⟨"."⟩ file text).isTest = false)
    (defined : m ∈ (Bank.add {} { symbols := [m] }).contents .symbols)
    (reads : (parse? text).map (fun tree =>
      (decide (∃ d ∈ tree.definitions, isOnlyTests tree d = true ∧ mentionIn file d.name = m),
        (Parsed.checkedBy {} ⟨"."⟩ ⟨file, text, tree⟩ rule).facts)) =
      some (true, { symbols := [m] })) : MayReportTest text m := by
  obtain ⟨tree, parses, found⟩ := Option.map_eq_some_iff.mp reads
  obtain ⟨marked, adds⟩ := Prod.mk.inj found
  refine ⟨⟨file, text, tree⟩, rfl, parses, looked, of_decide_eq_true marked,
    exists_mayReport adds defined ?_⟩
  have nothing : usesIn (Bank.add {} { symbols := [m] }) = [] := rfl
  rw [nothing]
  rfl

/-- Functions in a constant, in a trait and in a file that are compiled for tests only are
reported. -/
theorem finish_ignoredMarks :
    MayReportTest "#[cfg(test)]\nconst C: u8 = \x7b fn dead() \x7b\x7d 0 \x7d;\n"
      ⟨"dead", ⟨⟨"src/a.rs"⟩, 2, 20⟩⟩ ∧
    MayReportTest "#[cfg(test)]\ntrait T \x7b fn t() \x7b fn dead() \x7b\x7d \x7d \x7d\n"
      ⟨"dead", ⟨⟨"src/a.rs"⟩, 2, 23⟩⟩ ∧
    MayReportTest "#![cfg(test)]\nfn dead() \x7b\x7d\n" ⟨"dead", ⟨⟨"src/a.rs"⟩, 2, 4⟩⟩ := by
  refine ⟨?_, ?_, ?_⟩ <;>
    exact mayReportTest_of_parse? ⟨"src/a.rs"⟩ (by decide +kernel) (by decide +kernel)
      (by decide +kernel)

end UnusedFunction

end SourceLint
