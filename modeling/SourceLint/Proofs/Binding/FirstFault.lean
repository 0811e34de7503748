import SourceLint.Proofs.Binding.Faults
import SourceLint.Schema.Builtin

/-! # The fault that binding reports

Each fault is about one element of the tree and stands where that element does; only a
missing child has no place. The faults are listed in the order of the document, so in a
tree whose positions increase the one that binding reports is the earliest.
-/

namespace SourceLint

namespace Position

instance : Std.TransOrd Position :=
  inferInstanceAs (Std.TransCmp (compareLex (compareOn line) (compareOn column)))

theorem le_refl (p : Position) : p.le p = true := by
  have same : compare p p = .eq := Std.ReflCmp.compare_self
  rw [le, same]
  rfl

theorem le_of_lt {p q : Position} (before : compare p q = .lt) : p.le q = true := by
  rw [le, before]
  rfl

end Position

mutual

/-- An element and all that are in it, in document order. -/
def Markup.Element.nodes : Markup.Element → List Markup.Element
  | ⟨name, attributes, children, at_⟩ => ⟨name, attributes, children, at_⟩ :: nodesOfEach children

/-- The nodes of elements, one after the other. -/
def Markup.Element.nodesOfEach : List Markup.Element → List Markup.Element
  | [] => []
  | child :: rest => nodes child ++ nodesOfEach rest

end

/-- The positions of those elements that have kept theirs. -/
def Markup.Element.positions (elements : List Markup.Element) : List Position :=
  elements.filterMap (·.position)

namespace Binding

open Markup (Element)
open Markup.Element (nodesOfEach positions)

/-- The fault is what is wrong with this element, and stands where the element does. -/
def Error.IsAbout (node : Element) : Error → Prop
  | unexpectedRoot _ found at_ => found = node.name ∧ at_ = node.position
  | unknownElement _ element at_ => element = node.name ∧ at_ = node.position
  | duplicateElement _ element at_ => element = node.name ∧ at_ = node.position
  | unknownAttribute _ field at_ => (∃ a ∈ node.attributes, a.name = field) ∧ at_ = node.position
  | invalidValue _ field value _ at_ => ⟨field, value⟩ ∈ node.attributes ∧ at_ = node.position
  | missingAttribute _ field at_ => (∀ a ∈ node.attributes, a.name ≠ field) ∧ at_ = node.position
  | missingChild _ child => ∀ c ∈ node.children, c.name ≠ child

/-- A child is missing. -/
def Error.isMissingChild : Error → Bool
  | missingChild .. => true
  | _ => false

/-- A fault has the position of its element, unless a child is missing. -/
theorem Error.IsAbout.position? {node : Element} {fault : Error} (about : fault.IsAbout node) :
    fault.position? = if fault.isMissingChild then none else node.position := by
  cases fault <;> first | exact about.2 | rfl

theorem nodes_self (e : Element) : e ∈ e.nodes := by
  cases e
  exact List.mem_cons_self

theorem nodes_eq (e : Element) : e.nodes = e :: nodesOfEach e.children := by
  cases e
  rfl

/-! ## What faults are about -/

theorem attributeFault?_isAbout {s : Schema} {e : Element} {a : Markup.Attribute} {fault : Error}
    (member : a ∈ e.attributes) (found : attributeFault? s e.position a = some fault) :
    fault.IsAbout e := by
  simp only [attributeFault?] at found
  split at found
  · obtain rfl := Option.some.inj found
    exact ⟨⟨a, member, rfl⟩, rfl⟩
  · rename_i field declared
    split at found
    · cases found
    · obtain rfl := Option.some.inj found
      rw [Error.IsAbout, field?_name declared]
      exact ⟨member, rfl⟩

theorem missingFields_isAbout {s : Schema} {e : Element} {fault : Error}
    (member : fault ∈ missingFields s e.position e.attributes) : fault.IsAbout e := by
  simp only [missingFields, List.mem_map, List.mem_filter, Bool.and_eq_true, Bool.not_eq_true',
    List.any_eq_false, decide_eq_true_eq] at member
  obtain ⟨field, ⟨_, _, absent⟩, rfl⟩ := member
  exact ⟨absent, rfl⟩

theorem missingChildren_isAbout {s : Schema} {e : Element} {fault : Error}
    (member : fault ∈ missingChildren s e.children) : fault.IsAbout e := by
  simp only [missingChildren, List.mem_map, List.mem_filter, Bool.not_eq_true',
    List.any_eq_false, decide_eq_true_eq] at member
  obtain ⟨name, ⟨_, absent⟩, rfl⟩ := member
  exact absent

/-- The faults of an element by where they come from. -/
theorem faults_eq (s : Schema) (e : Element) :
    faults s e = e.attributes.filterMap (attributeFault? s e.position) ++
      missingFields s e.position e.attributes ++ childFaults s [] e.children ++
        missingChildren s e.children := by
  cases e
  rfl

/-- A child that is not declared or stands twice is a fault itself; any other has the faults
that are in it. -/
theorem childFaults_cons_cases (s : Schema) (before : List Element) (child : Element)
    (rest : List Element) :
    ∃ here, childFaults s before (child :: rest) = here ++ childFaults s (before ++ [child]) rest ∧
      ((∃ fault, here = [fault] ∧ fault.IsAbout child) ∨
        ∃ inner, s.child? child.name = some inner ∧ here = faults inner child) := by
  cases found : s.child? child.name with
  | none =>
      refine ⟨[.unknownElement s.name child.name child.position], ?_, .inl ⟨_, rfl, rfl, rfl⟩⟩
      simp only [childFaults, found]
  | some inner =>
      by_cases twice : (!inner.repeatable &&
          before.any (declaredName? s · = some inner.name)) = true
      · refine ⟨[.duplicateElement s.name inner.name child.position], ?_,
          .inl ⟨_, rfl, child?_name found, rfl⟩⟩
        simp only [childFaults, found, if_pos twice]
      · refine ⟨faults inner child, ?_, .inr ⟨inner, rfl, rfl⟩⟩
        simp only [childFaults, found, if_neg twice]

theorem childFaults_isAbout {s : Schema} {children : List Element}
    (inside : ∀ child ∈ children, ∀ inner, ∀ fault ∈ faults inner child,
      ∃ node ∈ child.nodes, fault.IsAbout node)
    (before : List Element) {fault : Error} (member : fault ∈ childFaults s before children) :
    ∃ node ∈ nodesOfEach children, fault.IsAbout node := by
  induction children generalizing before with
  | nil => simp [childFaults] at member
  | cons child rest ih =>
      obtain ⟨here, split, cases⟩ := childFaults_cons_cases s before child rest
      rw [split, List.mem_append] at member
      simp only [nodesOfEach, List.mem_append]
      rcases member with member | member
      · rcases cases with ⟨only, rfl, about⟩ | ⟨inner, _, rfl⟩
        · obtain rfl := List.mem_singleton.mp member
          exact ⟨child, .inl (nodes_self child), about⟩
        · obtain ⟨node, there, about⟩ := inside child List.mem_cons_self inner fault member
          exact ⟨node, .inl there, about⟩
      · obtain ⟨node, there, about⟩ := ih
          (fun other there => inside other (List.mem_cons_of_mem child there)) _ member
        exact ⟨node, .inr there, about⟩

/-- Every fault is about an element of the tree. -/
theorem faults_isAbout (s : Schema) (e : Element) :
    ∀ fault ∈ faults s e, ∃ node ∈ e.nodes, fault.IsAbout node := by
  induction e using Markup.Element.ofChildren generalizing s with
  | step e ih =>
      intro fault member
      rw [faults_eq, List.mem_append, List.mem_append, List.mem_append] at member
      rcases member with ((member | member) | member) | member
      · obtain ⟨a, there, found⟩ := List.mem_filterMap.mp member
        exact ⟨e, nodes_self e, attributeFault?_isAbout there found⟩
      · exact ⟨e, nodes_self e, missingFields_isAbout member⟩
      · obtain ⟨node, there, about⟩ := childFaults_isAbout (fun child here inner => ih child here inner)
          [] member
        exact ⟨node, by rw [nodes_eq]; exact List.mem_cons_of_mem e there, about⟩
      · exact ⟨e, nodes_self e, missingChildren_isAbout member⟩

/-! ## The order of the faults -/

/-- The positions of the faults that have one. -/
def faultPositions (faults : List Error) : List Position :=
  faults.filterMap Error.position?

theorem mem_positions_of_isAbout {nodes : List Element} {faults : List Error}
    (about : ∀ fault ∈ faults, ∃ node ∈ nodes, fault.IsAbout node) {p : Position}
    (member : p ∈ faultPositions faults) : p ∈ positions nodes := by
  obtain ⟨fault, there, placed⟩ := List.mem_filterMap.mp member
  obtain ⟨node, here, is⟩ := about fault there
  rw [is.position?] at placed
  split at placed
  · cases placed
  · exact List.mem_filterMap.mpr ⟨node, here, placed⟩

/-- The positions of the elements increase in document order. -/
def Increasing (nodes : List Element) : Prop :=
  (positions nodes).Pairwise (compare · · = .lt)

/-- Faults about the elements of one list come before those about the elements of a later
one. -/
theorem faultPositions_append {first second : List Element} {here later : List Error}
    (increasing : Increasing (first ++ second))
    (aboutFirst : ∀ fault ∈ here, ∃ node ∈ first, fault.IsAbout node)
    (aboutSecond : ∀ fault ∈ later, ∃ node ∈ second, fault.IsAbout node)
    (sortedHere : (faultPositions here).Pairwise (·.le ·))
    (sortedLater : (faultPositions later).Pairwise (·.le ·)) :
    (faultPositions (here ++ later)).Pairwise (·.le ·) := by
  rw [Increasing, positions, List.filterMap_append, List.pairwise_append] at increasing
  rw [faultPositions, List.filterMap_append, List.pairwise_append]
  refine ⟨sortedHere, sortedLater, fun p inHere q inLater => ?_⟩
  exact Position.le_of_lt (increasing.2.2 p (mem_positions_of_isAbout aboutFirst inHere) q
    (mem_positions_of_isAbout aboutSecond inLater))

/-- Faults about one element have one position. -/
theorem faultPositions_one {node : Element} {faults : List Error}
    (about : ∀ fault ∈ faults, fault.IsAbout node) :
    (faultPositions faults).Pairwise (·.le ·) := by
  have same : ∀ p ∈ faultPositions faults, node.position = some p := by
    intro p member
    have there : p ∈ positions [node] := mem_positions_of_isAbout
      (fun fault member => ⟨node, List.mem_singleton_self node, about fault member⟩) member
    simpa [positions] using there
  refine List.pairwise_of_forall_mem_list fun p inP q inQ => ?_
  rw [Option.some.inj ((same p inP).symm.trans (same q inQ))]
  exact Position.le_refl q

theorem faultPositions_missingChildren (s : Schema) (children : List Element) :
    faultPositions (missingChildren s children) = [] := by
  simp [faultPositions, missingChildren, Error.position?]

theorem childFaults_sorted {s : Schema} {children : List Element}
    (inside : ∀ child ∈ children, ∀ inner, Increasing child.nodes →
      (faultPositions (faults inner child)).Pairwise (·.le ·))
    (before : List Element) (increasing : Increasing (nodesOfEach children)) :
    (faultPositions (childFaults s before children)).Pairwise (·.le ·) := by
  induction children generalizing before with
  | nil => exact .nil
  | cons child rest ih =>
      obtain ⟨here, split, cases⟩ := childFaults_cons_cases s before child rest
      rw [split]
      rw [nodesOfEach] at increasing
      have both := increasing
      rw [Increasing, positions, List.filterMap_append, List.pairwise_append] at both
      have later := ih (fun other there => inside other (List.mem_cons_of_mem child there))
        (before ++ [child]) both.2.1
      have aboutLater : ∀ fault ∈ childFaults s (before ++ [child]) rest,
          ∃ node ∈ nodesOfEach rest, fault.IsAbout node := fun fault member =>
        childFaults_isAbout (fun other _ inner => faults_isAbout inner other) _ member
      rcases cases with ⟨only, rfl, about⟩ | ⟨inner, _, rfl⟩
      · have single : ∀ fault ∈ [only], fault.IsAbout child := by simpa using about
        exact faultPositions_append increasing
          (fun fault member => ⟨child, nodes_self child, single fault member⟩) aboutLater
          (faultPositions_one single) later
      · exact faultPositions_append increasing (faults_isAbout inner child) aboutLater
          (inside child List.mem_cons_self inner both.1) later

/-- In a tree whose positions increase, so do those of its faults. -/
theorem faults_sorted (s : Schema) (e : Element) (increasing : Increasing e.nodes) :
    (faultPositions (faults s e)).Pairwise (·.le ·) := by
  induction e using Markup.Element.ofChildren generalizing s with
  | step e ih =>
      rw [nodes_eq, ← List.singleton_append] at increasing
      have split := increasing
      rw [Increasing, positions, List.filterMap_append, List.pairwise_append] at split
      have aboutSelf : ∀ fault ∈ e.attributes.filterMap (attributeFault? s e.position) ++
          missingFields s e.position e.attributes, fault.IsAbout e := by
        intro fault member
        rcases List.mem_append.mp member with member | member
        · obtain ⟨a, there, found⟩ := List.mem_filterMap.mp member
          exact attributeFault?_isAbout there found
        · exact missingFields_isAbout member
      -- A missing child has no position, so where it is listed does not matter.
      have placed : faultPositions (faults s e) =
          faultPositions (e.attributes.filterMap (attributeFault? s e.position) ++
            missingFields s e.position e.attributes ++ childFaults s [] e.children) := by
        have none := faultPositions_missingChildren s e.children
        rw [faultPositions] at none
        rw [faults_eq, faultPositions, faultPositions, List.filterMap_append, none, List.append_nil]
      rw [placed]
      exact faultPositions_append increasing
        (fun fault member => ⟨e, List.mem_singleton_self e, aboutSelf fault member⟩)
        (fun fault member => childFaults_isAbout (fun child _ inner => faults_isAbout inner child)
          [] member)
        (faultPositions_one aboutSelf)
        (childFaults_sorted (fun child member inner => ih child member inner) [] split.2.1)

/-- The first of faults in order stands nowhere behind any other. -/
theorem first_le_faultPositions {faults : List Error} {e : Error} {p : Position}
    (sorted : (faultPositions faults).Pairwise (·.le ·)) (first : faults.head? = some e)
    (placed : e.position? = some p) : ∀ q ∈ faultPositions faults, p.le q = true := by
  obtain ⟨more, rfl⟩ := List.head?_eq_some_iff.mp first
  have cons : faultPositions (e :: more) = p :: faultPositions more := by
    simp [faultPositions, placed]
  rw [cons, List.pairwise_cons] at sorted
  rw [cons]
  intro q member
  rcases List.mem_cons.mp member with rfl | later
  · exact Position.le_refl q
  · exact sorted.1 q later

/-- Where the root has the schema's name, binding fails exactly when there are faults, and then
with the first of them. Each fault stands where the element does that it is about, but for
a missing child, which stands nowhere. Where positions increase in document order, so do
those of the faults, and no fault stands before the one that is reported. -/
theorem bind_error_iff_first_fault {s : Schema} {root : Element} (named : root.name = s.name) :
    ((∃ e, bind s root = .error e) ↔ faults s root ≠ []) ∧
      (∀ e, bind s root = .error e ↔ (faults s root).head? = some e) ∧
      (∀ fault ∈ faults s root, ∃ node ∈ root.nodes, fault.IsAbout node ∧
        fault.position? = if fault.isMissingChild then none else node.position) ∧
      (Increasing root.nodes → (faultPositions (faults s root)).Pairwise (·.le ·) ∧
        ∀ e p, bind s root = .error e → e.position? = some p →
          ∀ q ∈ faultPositions (faults s root), p.le q) := by
  have reported (e : Error) : bind s root = .error e ↔ (faults s root).head? = some e := by
    rw [bind, if_pos named, bindNode_eq, firstOr_eq_error_iff]
  refine ⟨?_, reported, fun fault member => ?_, fun increasing => ?_⟩
  · simp only [reported, ← Option.isSome_iff_exists, List.isSome_head?, ne_eq]
  · obtain ⟨node, there, about⟩ := faults_isAbout s root fault member
    exact ⟨node, there, about, about.position?⟩
  · have sorted := faults_sorted s root increasing
    exact ⟨sorted, fun e p failed placed =>
      first_le_faultPositions sorted ((reported e).mp failed) placed⟩

/-- A configuration with an exclude that says nothing, and a section that stands twice behind
it. -/
def silentExclude : Element :=
  ⟨"config", [], [
    ⟨"LongLine", [⟨"tabWidth", "2"⟩], [], some ⟨2, 3⟩⟩,
    ⟨"Analyzer", [⟨"parallelism", "4"⟩], [⟨"Exclude", [], [], some ⟨4, 5⟩⟩], some ⟨3, 3⟩⟩,
    ⟨"LongLine", [], [], some ⟨6, 3⟩⟩], some ⟨1, 1⟩⟩

theorem bind_silentExclude :
    silentExclude.name = Schema.config.name ∧ Increasing silentExclude.nodes ∧
      bind Schema.config silentExclude =
        .error (.missingAttribute "Exclude" "pattern" (some ⟨4, 5⟩)) ∧
      ∀ q ∈ faultPositions (faults Schema.config silentExclude), Position.le ⟨4, 5⟩ q := by
  have named : silentExclude.name = Schema.config.name := rfl
  have increasing : Increasing silentExclude.nodes := by
    unfold Increasing
    decide
  obtain ⟨_, reported, _, ordered⟩ := bind_error_iff_first_fault named
  have failed := (reported (.missingAttribute "Exclude" "pattern" (some ⟨4, 5⟩))).mpr rfl
  exact ⟨named, increasing, failed, (ordered increasing).2 _ _ failed rfl⟩

end Binding

end SourceLint
