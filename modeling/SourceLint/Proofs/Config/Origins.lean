import SourceLint.Config.Validation
import SourceLint.Proofs.Config.Lossless
import SourceLint.Proofs.Markup.Whereabouts

/-! # What is wrong with which element

What a load reports of the elements of a document is about one of them, and stands where that one
does: a mismatch about an element that does not fit the schema, an issue about the element of the
section or the exclude whose setting makes no sense.
-/

namespace SourceLint

open Markup (Element)
open Markup.Element (nodesOfEach)

theorem Binding.mem_nodes_of_child {e child node : Element} (there : child ∈ e.children)
    (inside : node ∈ child.nodes) : node ∈ e.nodes := by
  rw [nodes_eq]
  exact List.mem_cons_of_mem _ (Markup.mem_nodesOfEach.mpr ⟨child, there, inside⟩)

/-! ## Mismatches -/

namespace Binding

/-- Neither the schema nor one inside it demands a child. -/
inductive DemandsNoChild : Schema → Prop where
  | intro {s : Schema} (none : s.requiredChildren = [])
    (inside : ∀ inner ∈ s.children, DemandsNoChild inner) : DemandsNoChild s

theorem demandsNoChild_leaf {s : Schema} (none : s.requiredChildren = [])
    (leaf : s.children = []) : DemandsNoChild s :=
  ⟨none, by simp [leaf]⟩

theorem demandsNoChild_config : DemandsNoChild Schema.config := by
  refine ⟨rfl, ?_⟩
  intro section_ member
  simp only [Schema.config, List.mem_cons, List.not_mem_nil, or_false] at member
  rcases member with rfl | rfl | rfl
  · exact ⟨rfl, List.forall_mem_singleton.mpr (demandsNoChild_leaf rfl rfl)⟩
  · exact demandsNoChild_leaf rfl rfl
  · exact ⟨rfl, List.forall_mem_singleton.mpr (demandsNoChild_leaf rfl rfl)⟩

theorem isMissingChild_of_mem_childFaults {s : Schema} {before children : List Element}
    (inside : ∀ child ∈ children, ∀ inner ∈ s.children, ∀ fault ∈ faults inner child,
      fault.isMissingChild = false) :
    ∀ fault ∈ childFaults s before children, fault.isMissingChild = false := by
  induction children generalizing before with
  | nil => simp [childFaults]
  | cons child rest ih =>
      obtain ⟨here, later⟩ := List.forall_mem_cons.mp inside
      rw [childFaults]
      refine List.forall_mem_append.mpr ⟨?_, ih later⟩
      split
      · simp [Error.isMissingChild]
      · rename_i inner found
        split
        · simp [Error.isMissingChild]
        · exact here inner (List.mem_of_find?_eq_some found)

/-- Where no child is demanded, none is missing. -/
theorem DemandsNoChild.isMissingChild {s : Schema} {e : Element} (demands : DemandsNoChild s) :
    ∀ fault ∈ faults s e, fault.isMissingChild = false := by
  induction e using Markup.Element.ofChildren generalizing s with
  | step e ih =>
      obtain ⟨none, inside⟩ := demands
      have absent : missingChildren s e.children = [] := by simp [missingChildren, none]
      rw [faults_eq, absent, List.append_nil]
      refine List.forall_mem_append.mpr ⟨List.forall_mem_append.mpr ⟨?_, ?_⟩, ?_⟩
      · intro fault member
        obtain ⟨a, _, found⟩ := List.mem_filterMap.mp member
        unfold attributeFault? at found
        repeat' split at found
        all_goals cases found
        all_goals rfl
      · intro fault member
        obtain ⟨field, _, rfl⟩ := List.mem_map.mp member
        rfl
      · exact isMissingChild_of_mem_childFaults fun child there inner declared =>
          ih child there (inside inner declared)

end Binding

/-- A mismatch with the configuration is about an element of the document, and stands there. -/
theorem Config.isAbout_of_bind {root : Element} {e : Binding.Error}
    (failed : Config.bind root = .error e) :
    ∃ node ∈ root.nodes, e.IsAbout node ∧ e.position? = node.position := by
  have mismatch : Binding.bind Schema.config root = .error e := by
    rw [Config.bind] at failed
    cases bound : Binding.bind Schema.config root with
    | error e' =>
        rw [bound] at failed
        exact congrArg Except.error (Except.error.inj failed)
    | ok b =>
        rw [bound] at failed
        cases failed
  rw [Binding.bind] at mismatch
  split at mismatch
  · have first := (Binding.firstOr_eq_error_iff.mp ((Binding.bindNode_eq _ _).symm.trans mismatch))
    have member := List.mem_of_mem_head? (Option.mem_def.mpr first)
    obtain ⟨node, there, about⟩ := Binding.faults_isAbout _ _ e member
    have known := Binding.demandsNoChild_config.isMissingChild e member
    refine ⟨node, there, about, ?_⟩
    rw [about.position?, known]
    rfl
  · obtain rfl := Except.error.inj mismatch
    exact ⟨root, Binding.nodes_self root, ⟨rfl, rfl⟩, rfl⟩

/-! ## Issues -/

/-- The issue is what is wrong with a setting of this element. -/
inductive Issue.IsAbout (node : Element) (i : Issue) : Prop where
  | workers {s : AnalyzerSection} (tells : s.Tells node)
    (raised : Config.checkParallelism s = some i)
  | exclude {field : String} {x : ExcludeEntry} (tells : x.Tells field node)
    (raised : Config.checkExclude field x = some i)
  | line {s : LongLineSection} (tells : s.Tells node) (raised : i ∈ Config.longLineIssues s)

namespace Config

variable {i : Issue}

theorem position_of_checkParallelism {s : AnalyzerSection}
    (raised : checkParallelism s = some i) : i.position = s.position.getD .start := by
  obtain ⟨n, _, raised⟩ := Option.bind_eq_some_iff.mp raised
  split at raised
  · cases raised
  · obtain rfl := Option.some.inj raised
    rfl

theorem position_of_checkExclude {field : String} {x : ExcludeEntry}
    (raised : checkExclude field x = some i) : i.position = x.position.getD .start := by
  unfold checkExclude at raised
  repeat' split at raised
  all_goals cases raised
  all_goals rfl

theorem position_of_checkPositive {field : String} {raw : Option String} {at_ : Option Position}
    (raised : checkPositive field raw at_ = some i) : i.position = at_.getD .start := by
  obtain ⟨literal, _, raised⟩ := Option.bind_eq_some_iff.mp raised
  split at raised
  · cases raised
  · obtain rfl := Option.some.inj raised
    rfl

theorem position_of_checkTabWithinLine {s : LongLineSection}
    (raised : checkTabWithinLine s = some i) : i.position = s.position.getD .start := by
  obtain ⟨max, _, raised⟩ := Option.bind_eq_some_iff.mp raised
  obtain ⟨tab, _, raised⟩ := Option.bind_eq_some_iff.mp raised
  split at raised
  · obtain rfl := Option.some.inj raised
    rfl
  · cases raised

theorem position_of_mem_longLineIssues {s : LongLineSection} (raised : i ∈ longLineIssues s) :
    i.position = s.position.getD .start := by
  simp only [longLineIssues, List.mem_append, Option.mem_toList] at raised
  rcases raised with (raised | raised) | raised
  · exact position_of_checkPositive raised
  · exact position_of_checkPositive raised
  · exact position_of_checkTabWithinLine raised

end Config

/-- An issue stands where its element does. -/
theorem Issue.IsAbout.position {node : Element} {i : Issue} (about : i.IsAbout node) :
    i.position = node.position.getD .start := by
  cases about with
  | workers tells raised => rw [Config.position_of_checkParallelism raised, tells.position]
  | exclude tells raised => rw [Config.position_of_checkExclude raised, tells.position]
  | line tells raised => rw [Config.position_of_mem_longLineIssues raised, tells.position]

section

variable {e : Element} {i : Issue}

theorem exists_of_hasSection {σ : Type} {name : String} {tells : Element → σ → Prop}
    {section_ : Option σ} {s : σ} (has : e.HasSection name tells section_)
    (is : section_ = some s) : ∃ child ∈ e.children, tells child s := by
  subst is
  obtain ⟨child, only, tells⟩ := has
  have kept : child ∈ e.children.filter (·.name = name) := only ▸ List.mem_singleton_self child
  exact ⟨child, (List.mem_filter.mp kept).1, tells⟩

theorem exists_of_forall₂ {A B : Type} {related : A → B → Prop} {as : List A} {bs : List B} {b : B}
    (all : List.Forall₂ related as bs) (member : b ∈ bs) : ∃ a ∈ as, related a b := by
  induction all with
  | nil => cases member
  | @cons a _ _ _ here _ ih =>
      rcases List.mem_cons.mp member with rfl | later
      · exact ⟨a, List.mem_cons_self, here⟩
      · obtain ⟨a, there, holds⟩ := ih later
        exact ⟨a, List.mem_cons_of_mem _ there, holds⟩

theorem exists_isAbout_exclude {field : String} {excludes : List ExcludeEntry}
    (tells : List.Forall₂ (ExcludeEntry.Tells field) e.children excludes)
    (raised : i ∈ excludes.filterMap (Config.checkExclude field)) :
    ∃ node ∈ e.nodes, i.IsAbout node := by
  obtain ⟨x, listed, raised⟩ := List.mem_filterMap.mp raised
  obtain ⟨child, there, told⟩ := exists_of_forall₂ tells listed
  exact ⟨child, Binding.mem_nodes_of_child there (Binding.nodes_self child), .exclude told raised⟩

/-- Every issue of a configuration is about an element that it has been read from. -/
theorem Config.Tells.exists_isAbout {c : Config} (tells : c.Tells e) (raised : i ∈ c.issues) :
    ∃ node ∈ e.nodes, i.IsAbout node := by
  simp only [Config.issues, List.mem_append] at raised
  rcases raised with (raised | raised) | raised
  · cases section_ : c.analyzer with
    | none => simp [section_] at raised
    | some s =>
        obtain ⟨child, there, told⟩ := exists_of_hasSection tells.analyzer section_
        rw [section_, Option.map_some, Option.getD_some, analyzerIssues, List.mem_append] at raised
        rcases raised with raised | raised
        · exact ⟨child, Binding.mem_nodes_of_child there (Binding.nodes_self child),
            .workers told (Option.mem_toList.mp raised)⟩
        · obtain ⟨node, inside, about⟩ := exists_isAbout_exclude told.excludes raised
          exact ⟨node, Binding.mem_nodes_of_child there inside, about⟩
  · cases section_ : c.longLine with
    | none => simp [section_] at raised
    | some s =>
        obtain ⟨child, there, told⟩ := exists_of_hasSection tells.longLine section_
        rw [section_, Option.map_some, Option.getD_some] at raised
        exact ⟨child, Binding.mem_nodes_of_child there (Binding.nodes_self child),
          .line told raised⟩
  · cases section_ : c.unusedFunction with
    | none => simp [section_] at raised
    | some s =>
        obtain ⟨child, there, told⟩ := exists_of_hasSection tells.unusedFunction section_
        rw [section_, Option.map_some, Option.getD_some, unusedFunctionIssues] at raised
        obtain ⟨node, inside, about⟩ := exists_isAbout_exclude told.excludes raised
        exact ⟨node, Binding.mem_nodes_of_child there inside, about⟩

end

end SourceLint
