import SourceLint.Proofs.Config.Demands
import SourceLint.Proofs.Glob.Grammar
import SourceLint.Proofs.Markup.Openings

/-! # Issues in the order of the document

The elements of a document stand one behind the other in its text. So the issues of a configuration
that was read from it come in the order in which the document writes the settings, whatever the
order of its sections: they are what one gets by going through the document from front to back.
-/

namespace SourceLint

open Markup (Element)
open Markup.Element (nodesOfEach positions)

/-- The one stands in front of the other. -/
def Position.Before (p q : Position) : Prop :=
  p.line < q.line ∨ p.line = q.line ∧ p.column < q.column

theorem Position.compare_eq_lt_iff {p q : Position} : compare p q = .lt ↔ p.Before q := by
  have split : compare p q = (compare p.line q.line).then (compare p.column q.column) := rfl
  rw [split, Ordering.then_eq_lt, Nat.compare_eq_lt, Nat.compare_eq_eq, Nat.compare_eq_lt, Before]

theorem Position.Before.le {p q : Position} (before : p.Before q) :
    p.le q = true ∧ q.le p = false := by
  rw [← Bool.not_eq_true, Position.le_iff, Position.le_iff]
  unfold Position.Before at before
  omega

namespace Markup.Element

/-! ## The demands of a document -/

/-- What is demanded of the attributes of a section. -/
def ownDemands (e : Element) : List Demand :=
  if e.name = "Analyzer" then
    workerDemands e.position ((e.lastAttribute? "parallelism").bind Text.parseInteger)
  else if e.name = "LongLine" then
    lineDemands e.position (e.lastAttribute? "maxLineLength") (e.lastAttribute? "tabWidth")
  else []

/-- What is demanded of an element in a section of that name. -/
def innerDemands (name : String) (x : Element) : List Demand :=
  if name = "Analyzer" then globDemands "pattern" x.position (x.lastAttribute? "pattern")
  else if name = "UnusedFunction" then globDemands "name" x.position (x.lastAttribute? "name")
  else []

def sectionDemands (e : Element) : List Demand :=
  e.ownDemands ++ e.children.flatMap (innerDemands e.name)

/-- What is demanded of the settings of a document, from front to back. -/
def demands (root : Element) : List Demand :=
  root.children.flatMap sectionDemands

/-- Where the element stands, which is at the start if that is not known. -/
def place (e : Element) : Position :=
  e.position.getD .start

/-- Each element stands in front of those after it. -/
def InOrder (nodes : List Element) : Prop :=
  nodes.Pairwise fun node later => node.place.Before later.place

end Markup.Element

open Markup.Element

/-! ## Where the demands stand -/

theorem position_of_mem_workerDemands {at_ : Option Position} {n : Option Int} :
    ∀ d ∈ workerDemands at_ n, d.position = at_ := by
  simp [workerDemands]

theorem position_of_mem_globDemands {field : String} {at_ : Option Position}
    {pattern : Option String} : ∀ d ∈ globDemands field at_ pattern, d.position = at_ := by
  simp [globDemands]

theorem position_of_mem_lineDemands {at_ : Option Position} {line tab : Option String} :
    ∀ d ∈ lineDemands at_ line tab, d.position = at_ := by
  intro d member
  simp only [lineDemands, List.mem_append, List.mem_map] at member
  rcases member with (⟨_, _, rfl⟩ | ⟨_, _, rfl⟩) | member
  · rfl
  · rfl
  · split at member
    · rw [List.mem_singleton.mp member]
    · cases member

theorem position_of_mem_ownDemands {e : Element} : ∀ d ∈ e.ownDemands, d.position = e.position := by
  unfold ownDemands
  split_ifs
  · exact position_of_mem_workerDemands
  · exact position_of_mem_lineDemands
  · exact List.forall_mem_nil _

theorem position_of_mem_innerDemands {name : String} {x : Element} :
    ∀ d ∈ innerDemands name x, d.position = x.position := by
  unfold innerDemands
  split_ifs
  · exact position_of_mem_globDemands
  · exact position_of_mem_globDemands
  · exact List.forall_mem_nil _

/-- The issues of demands that stand where an element does stand there. -/
theorem position_of_mem_unmet {ds : List Demand} {e : Element}
    (all : ∀ d ∈ ds, d.position = e.position) : ∀ i ∈ unmet ds, i.position = e.place := by
  intro i member
  obtain ⟨d, demanded, -, rfl⟩ := mem_unmet_iff.mp member
  rw [Demand.issue, all d demanded]
  rfl

theorem pairwise_unmet {ds : List Demand} {e : Element}
    (all : ∀ d ∈ ds, d.position = e.position) :
    (unmet ds).Pairwise fun i j => i.position.le j.position := by
  refine List.pairwise_of_forall_mem_list fun i first j second => ?_
  rw [position_of_mem_unmet all i first, position_of_mem_unmet all j second, Position.le_iff]
  exact .inr ⟨rfl, Nat.le_refl _⟩

theorem exists_node_of_mem_unmet {e : Element} {i : Issue} (member : i ∈ unmet e.sectionDemands) :
    ∃ node ∈ e.nodes, i.position = node.place := by
  rw [sectionDemands, unmet_append, unmet_flatMap, List.mem_append, List.mem_flatMap] at member
  rcases member with own | ⟨x, there, inner⟩
  · exact ⟨e, Binding.nodes_self e, position_of_mem_unmet position_of_mem_ownDemands i own⟩
  · exact ⟨x, Binding.mem_nodes_of_child there (Binding.nodes_self x),
      position_of_mem_unmet position_of_mem_innerDemands i inner⟩

/-! ## Going through a document -/

/-- The elements that stand in order do so child by child. -/
theorem inOrder_nodesOfEach {elements : List Element} (inOrder : InOrder (nodesOfEach elements)) :
    (∀ e ∈ elements, InOrder e.nodes) ∧
      elements.Pairwise fun e later =>
        ∀ node ∈ e.nodes, ∀ other ∈ later.nodes, node.place.Before other.place := by
  induction elements with
  | nil => exact ⟨List.forall_mem_nil _, .nil⟩
  | cons e rest ih =>
      obtain ⟨here, there, apart⟩ := List.pairwise_append.mp inOrder
      obtain ⟨each, ordered⟩ := ih there
      refine ⟨List.forall_mem_cons.mpr ⟨here, each⟩, List.pairwise_cons.mpr ⟨?_, ordered⟩⟩
      intro later member node inside other inside'
      exact apart node inside other (Markup.mem_nodesOfEach.mpr ⟨later, member, inside'⟩)

/-- A section comes first, and then what is in it. -/
theorem pairwise_sectionDemands {e : Element} (inOrder : InOrder e.nodes) :
    (unmet e.sectionDemands).Pairwise fun i j => i.position.le j.position := by
  rw [Binding.nodes_eq] at inOrder
  obtain ⟨first, inside⟩ := List.pairwise_cons.mp inOrder
  obtain ⟨-, ordered⟩ := inOrder_nodesOfEach inside
  rw [sectionDemands, unmet_append, unmet_flatMap, List.pairwise_append, List.pairwise_flatMap]
  refine ⟨pairwise_unmet position_of_mem_ownDemands,
    ⟨fun x _ => pairwise_unmet position_of_mem_innerDemands, ordered.imp ?_⟩, ?_⟩
  · intro x y apart i here j there
    rw [position_of_mem_unmet position_of_mem_innerDemands i here,
      position_of_mem_unmet position_of_mem_innerDemands j there]
    exact (apart x (Binding.nodes_self x) y (Binding.nodes_self y)).le.1
  · intro i own j inner
    obtain ⟨x, member, inner⟩ := List.mem_flatMap.mp inner
    rw [position_of_mem_unmet position_of_mem_ownDemands i own,
      position_of_mem_unmet position_of_mem_innerDemands j inner]
    exact (first x (Markup.mem_nodesOfEach.mpr ⟨x, member, Binding.nodes_self x⟩)).le.1

/-! ## Sections -/

theorem globDemands_of_tells {field : String} {x : ExcludeEntry} {e : Element}
    (tells : x.Tells field e) : globDemands field x.position (some x.pattern) =
      globDemands field e.position (e.lastAttribute? field) := by
  rw [tells.pattern.value, Option.bind_fun_some, tells.position]

theorem flatMap_globDemands {field : String} {elements : List Element}
    {excludes : List ExcludeEntry} (tells : List.Forall₂ (ExcludeEntry.Tells field) elements excludes) :
    excludes.flatMap (fun x => globDemands field x.position (some x.pattern)) =
      elements.flatMap fun e => globDemands field e.position (e.lastAttribute? field) := by
  induction tells with
  | nil => rfl
  | cons here _ ih => rw [List.flatMap_cons, List.flatMap_cons, ih, globDemands_of_tells here]

theorem AnalyzerSection.Tells.demands {s : AnalyzerSection} {e : Element} (tells : s.Tells e)
    (named : e.name = "Analyzer") : s.demands = e.sectionDemands := by
  have own : e.ownDemands =
      workerDemands e.position ((e.lastAttribute? "parallelism").bind Text.parseInteger) :=
    if_pos named
  have inner : innerDemands e.name =
      fun x => globDemands "pattern" x.position (x.lastAttribute? "pattern") :=
    funext fun _ => if_pos named
  rw [AnalyzerSection.demands, sectionDemands, own, inner, flatMap_globDemands tells.excludes,
    tells.position, tells.parallelism.value]

theorem LongLineSection.Tells.demands {s : LongLineSection} {e : Element} (tells : s.Tells e)
    (named : e.name = "LongLine") : s.demands = e.sectionDemands := by
  have own : e.ownDemands =
      lineDemands e.position (e.lastAttribute? "maxLineLength") (e.lastAttribute? "tabWidth") := by
    rw [ownDemands, named]
    rfl
  rw [LongLineSection.demands, sectionDemands, own, tells.children, List.flatMap_nil,
    List.append_nil, tells.position, tells.maxLineLength.value, tells.tabWidth.value,
    Option.bind_fun_some, Option.bind_fun_some]

theorem UnusedFunctionSection.Tells.demands {s : UnusedFunctionSection} {e : Element}
    (tells : s.Tells e) (named : e.name = "UnusedFunction") : s.demands = e.sectionDemands := by
  have own : e.ownDemands = [] := by
    rw [ownDemands, named]
    rfl
  have inner : innerDemands e.name =
      fun x => globDemands "name" x.position (x.lastAttribute? "name") := by
    rw [named]
    rfl
  rw [UnusedFunctionSection.demands, sectionDemands, own, inner,
    flatMap_globDemands tells.excludes, List.nil_append]

/-- What a section makes of the one element that it tells of is made of all elements of the name. -/
theorem hasSection_demands {S : Type} {e : Element} {name : String} {tells : Element → S → Prop}
    {demands : S → List Demand} {section_ : Option S} (has : e.HasSection name tells section_)
    (same : ∀ child s, tells child s → child.name = name → demands s = child.sectionDemands) :
    (section_.map demands).getD [] =
      (e.children.filter (·.name = name)).flatMap sectionDemands := by
  cases section_ with
  | none =>
      have absent : e.children.filter (·.name = name) = [] :=
        List.filter_eq_nil_iff.mpr fun child member => by simpa using has child member
      rw [absent]
      rfl
  | some s =>
      obtain ⟨child, only, told⟩ := has
      have kept : child ∈ e.children.filter (·.name = name) := only ▸ List.mem_singleton_self child
      have named : child.name = name := of_decide_eq_true (List.mem_filter.mp kept).2
      rw [only, List.flatMap_singleton, Option.map_some, Option.getD_some,
        same child s told named]

/-- The sections of a document, kind by kind. -/
def byKind (sections : List Element) : List Element :=
  sections.filter (·.name = "Analyzer") ++ sections.filter (·.name = "LongLine") ++
    sections.filter (·.name = "UnusedFunction")

theorem perm_byKind {sections : List Element}
    (known : ∀ e ∈ sections, e.name ∈ ["Analyzer", "LongLine", "UnusedFunction"]) :
    sections.Perm (byKind sections) := by
  induction sections with
  | nil => exact .nil
  | cons e rest ih =>
      obtain ⟨here, later⟩ := List.forall_mem_cons.mp known
      have perm := ih later
      simp only [List.mem_cons, List.not_mem_nil, or_false] at here
      unfold byKind at perm ⊢
      rcases here with named | named | named
      · simpa [named] using perm
      · rw [List.append_assoc] at perm
        simpa [named] using (perm.cons e).trans List.perm_middle.symm
      · simpa [named] using (perm.cons e).trans List.perm_middle.symm

theorem Config.Tells.demands {c : Config} {root : Element} (tells : c.Tells root) :
    c.demands = (byKind root.children).flatMap sectionDemands := by
  rw [Config.demands, byKind, List.flatMap_append, List.flatMap_append,
    hasSection_demands tells.analyzer fun _ _ told named => told.demands named,
    hasSection_demands tells.longLine fun _ _ told named => told.demands named,
    hasSection_demands tells.unusedFunction fun _ _ told named => told.demands named]

/-! ## Whole documents -/

variable {text : String} {root : Element} {c : Config}

theorem inOrder_of_parse (parsed : Markup.parse text = .ok root) : InOrder root.nodes := by
  have placed : positions root.nodes = root.nodes.map place := by
    rw [positions, ← List.filterMap_eq_map]
    refine List.filterMap_congr fun node member => ?_
    obtain ⟨p, stands⟩ := Markup.exists_standsAt parsed member
    rw [Function.comp, place, stands.position]
    rfl
  have increasing := Markup.increasing_of_parse parsed
  rw [Binding.Increasing, placed, List.pairwise_map] at increasing
  exact increasing.imp Position.compare_eq_lt_iff.mp

/-- Validation goes through a document from front to back. -/
theorem validate_of_inOrder (tells : c.Tells root) (inOrder : InOrder root.nodes) :
    c.validate = unmet root.demands := by
  rw [Binding.nodes_eq] at inOrder
  obtain ⟨each, apart⟩ := inOrder_nodesOfEach (List.pairwise_cons.mp inOrder).2
  rw [Config.validate, Config.issues_eq, tells.demands, demands, unmet_flatMap, unmet_flatMap]
  refine mergeSort_flatMap (fun i j k => Position.le_trans i.position j.position k.position)
    (fun i j => Position.le_total i.position j.position) (perm_byKind tells.children)
    (fun e member => pairwise_sectionDemands (each e member)) (apart.imp ?_)
  intro e later before i here j there
  obtain ⟨node, inside, at_⟩ := exists_node_of_mem_unmet here
  obtain ⟨other, inside', at_'⟩ := exists_node_of_mem_unmet there
  rw [at_, at_']
  exact (before node inside other inside').le

theorem exists_node_of_mem_demands {d : Demand} (demanded : d ∈ root.demands) :
    ∃ node ∈ root.nodes, d.position = node.position := by
  obtain ⟨e, section_, demanded⟩ := List.mem_flatMap.mp demanded
  rcases List.mem_append.mp demanded with own | inner
  · exact ⟨e, Binding.mem_nodes_of_child section_ (Binding.nodes_self e),
      position_of_mem_ownDemands d own⟩
  · obtain ⟨x, there, inner⟩ := List.mem_flatMap.mp inner
    exact ⟨x, Binding.mem_nodes_of_child section_
        (Binding.mem_nodes_of_child there (Binding.nodes_self x)),
      position_of_mem_innerDemands d inner⟩

/-- What is found wrong with the configuration of a text: the demands that are not met as one comes
upon them in the document, whose elements stand one behind the other in the text. -/
structure FollowsText (text : String) (root : Element) (found : List Issue) : Prop where
  frontToBack : found = unmet root.demands
  demanded : ∀ d ∈ root.demands, ∃ node ∈ root.nodes, d.position = node.position
  stands : ∀ node ∈ root.nodes, ∃ p, node.StandsAt text p
  inOrder : InOrder root.nodes

/-- Validation finds what does not meet its demand in any configuration, and all of it, by position
and then by check; in that of a text it goes from front to back. A glob is what makes a pattern, and
a bound is the positive number that is spelled, if that fits a machine word. -/
theorem Config.validate_exact :
    (∀ c : Config, c.Refuses c.validate) ∧
      (∀ pattern : String, (∃ tokens, Glob.compile pattern = .ok tokens) ↔
        Glob.IsPattern none pattern.toList) ∧
      (∀ (literal : String) (n : Nat), Text.parsePositive literal = some n ↔
        Text.Spells literal n ∧ 0 < n ∧ n ≤ Text.maxWord) ∧
      ∀ text root c, Markup.parse text = .ok root → Config.bind root = .ok c →
        FollowsText text root c.validate := by
  refine ⟨refuses_validate, fun _ => Glob.compile_ok_iff, fun _ _ => Text.parsePositive_eq_some_iff,
    fun text root c parsed bound => ?_⟩
  have inOrder := inOrder_of_parse parsed
  exact ⟨validate_of_inOrder (tells_of_bind bound) inOrder,
    fun d demanded => exists_node_of_mem_demands demanded,
    fun node member => Markup.exists_standsAt parsed member, inOrder⟩

def lineFirstText : String :=
  "<config>\n  <LongLine maxLineLength=\"z\"/>\n  <Analyzer parallelism=\"0\"/>\n</config>"

/-- The section of the line rule comes first, and neither section makes sense. -/
def lineFirst : Element :=
  ⟨"config", [], [⟨"LongLine", [⟨"maxLineLength", "z"⟩], [], some ⟨2, 3⟩⟩,
    ⟨"Analyzer", [⟨"parallelism", "0"⟩], [], some ⟨3, 3⟩⟩], some ⟨1, 1⟩⟩

/-- The check of the workers comes first, and its issue second. -/
theorem validate_lineFirst :
    Markup.parse lineFirstText = .ok lineFirst ∧
      ∃ c, Config.bind lineFirst = .ok c ∧ FollowsText lineFirstText lineFirst c.validate ∧
        c.issues.map (·.position) = [⟨3, 3⟩, ⟨2, 3⟩] ∧
        c.validate.map (·.position) = [⟨2, 3⟩, ⟨3, 3⟩] := by
  have parsed : Markup.parse lineFirstText = .ok lineFirst := by rfl
  let c : Config :=
    { analyzer := some { parallelism := some 0, position := some ⟨3, 3⟩ }
      longLine := some { maxLineLength := some "z", position := some ⟨2, 3⟩ }
      position := some ⟨1, 1⟩ }
  have bound : Config.bind lineFirst = .ok c := by rfl
  have follows := Config.validate_exact.2.2.2 _ _ _ parsed bound
  refine ⟨parsed, c, bound, follows, by decide +kernel, ?_⟩
  rw [follows.frontToBack]
  decide +kernel

end SourceLint
