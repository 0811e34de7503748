import SourceLint.Proofs.Binding.Conformance
import SourceLint.Proofs.Markup.Openings

/-! # Looking attributes up

To look an attribute up is to find the first one of its name, and binding keeps the last one. The
attributes of an element have lost their prefixes, so there may be two of one name, though no two
that the text gives one prefix. Where there is one, looking it up finds what is bound.
-/

namespace SourceLint

open Markup (Attribute Element OpeningTag)

namespace Markup

variable {e node : Element} {name : String}

/-- The element does not have two attributes of the name. -/
def Element.HasOnce (e : Element) (name : String) : Prop :=
  e.attributes.countP (·.name = name) ≤ 1

/-- The tag does not give the name two prefixes. -/
def OpeningTag.OnePrefix (tag : OpeningTag) (name : String) : Prop :=
  ∀ a ∈ tag.attributes, ∀ b ∈ tag.attributes, a.name.local = name → b.name.local = name →
    a.name.qualifier = b.name.qualifier

theorem attribute?_eq_none_iff :
    e.attribute? name = none ↔ ¬ ∃ a ∈ e.attributes, a.name = name := by
  simp [Element.attribute?]

/-- The first attribute of a name is the last one where there are not two. -/
theorem lastAttribute?_eq_attribute? (once : e.HasOnce name) :
    e.lastAttribute? name = e.attribute? name := by
  rw [Element.HasOnce, List.countP_eq_length_filter] at once
  rw [Element.lastAttribute?, Element.attribute?, ← List.head?_filter, ← List.head?_filter,
    List.filter_reverse]
  generalize e.attributes.filter (·.name = name) = named at once
  cases named with
  | nil => rfl
  | cons a rest =>
      obtain rfl := List.eq_nil_of_length_eq_zero (Nat.le_zero.mp (Nat.le_of_succ_le_succ once))
      rfl

/-- Different members are more than one. -/
theorem length_le_one_iff {A : Type} {l : List A} (distinct : l.Nodup) :
    l.length ≤ 1 ↔ ∀ a ∈ l, ∀ b ∈ l, a = b := by
  match l, distinct with
  | [], _ => simp
  | [_], _ => simp
  | a :: b :: rest, distinct =>
      have differ : a ≠ b := fun same => (List.nodup_cons.mp distinct).1 (same ▸ List.mem_cons_self)
      constructor
      · intro short
        simp at short
      · intro same
        exact absurd (same a (by simp) b (by simp)) differ

/-- An element has a name twice just where the tag that opens it gives the name two prefixes. -/
theorem OpeningTag.Opens.hasOnce_iff {tag : OpeningTag} (opens : tag.Opens node) (name : String) :
    node.HasOnce name ↔ tag.OnePrefix name := by
  have names : node.attributes.countP (·.name = name) =
      ((tag.attributes.map (·.name)).filter (·.local = name)).length := by
    rw [opens.attributes, List.countP_map, ← List.countP_eq_length_filter, List.countP_map]
    rfl
  rw [Element.HasOnce, names, length_le_one_iff (opens.distinct.filter _), OnePrefix]
  simp only [List.mem_filter, List.mem_map, decide_eq_true_eq]
  constructor
  · intro same a here b there local_ local'
    exact congrArg _ (same a.name ⟨⟨a, here, rfl⟩, local_⟩ b.name ⟨⟨b, there, rfl⟩, local'⟩)
  · rintro same _ ⟨⟨a, here, rfl⟩, local_⟩ _ ⟨⟨b, there, rfl⟩, local'⟩
    calc a.name = ⟨a.name.qualifier, a.name.local⟩ := rfl
      _ = ⟨b.name.qualifier, b.name.local⟩ := by
        rw [same a here b there local_ local', local_, local']
      _ = b.name := rfl

theorem nodup_iff_hasOnce : (e.attributes.map (·.name)).Nodup ↔ ∀ name, e.HasOnce name := by
  rw [List.nodup_iff_count_le_one]
  refine forall_congr' fun name => ?_
  rw [Element.HasOnce, List.count, List.countP_map]
  rfl

/-- The tag tells attributes apart by their prefixes, and the element does not. -/
structure OpeningTag.TellsApart (tag : OpeningTag) (node : Element) : Prop where
  qualified : (tag.attributes.map (·.name)).Nodup
  once : ∀ name, node.HasOnce name ↔ tag.OnePrefix name
  distinct : (node.attributes.map (·.name)).Nodup ↔ ∀ name, tag.OnePrefix name

theorem OpeningTag.Opens.tellsApart {tag : OpeningTag} (opens : tag.Opens node) :
    tag.TellsApart node where
  qualified := opens.distinct
  once := opens.hasOnce_iff
  distinct := nodup_iff_hasOnce.trans (forall_congr' opens.hasOnce_iff)

end Markup

namespace Binding

/-- What is bound is what looking the attributes up comes to, at every node: where there is none of
a name nothing is bound, and where there is one its value is. Of several the last one is bound. -/
inductive LooksUp : Schema → Element → Bound → Prop where
  | intro {s : Schema} {e : Element} {b : Bound}
    (absent : ∀ name, b.value? name = none ↔ e.attribute? name = none)
    (only : ∀ name, e.HasOnce name →
      b.value? name = (e.attribute? name).bind fun raw =>
        (s.field? name).bind fun field => convert raw field.kind)
    (last : ∀ name, b.value? name = (e.lastAttribute? name).bind fun raw =>
      (s.field? name).bind fun field => convert raw field.kind)
    (length : b.children.length = e.children.length)
    (declared : ∀ child ∈ e.children, ∃ inner, s.child? child.name = some inner)
    (children : ∀ pair ∈ e.children.zip b.children, ∀ inner,
      s.child? pair.1.name = some inner → LooksUp inner pair.1 pair.2) :
    LooksUp s e b

theorem value?_eq_none_iff {b : Bound} {name : String} :
    b.value? name = none ↔ name ∉ b.values.map Prod.fst := by
  rw [Bound.value?, Option.map_eq_none_iff, List.find?_eq_none, List.mem_map]
  simp only [decide_eq_true_eq, not_exists, not_and]

theorem IsImage.looksUp {s : Schema} {e : Element} {b : Bound} (image : IsImage s e b) :
    LooksUp s e b := by
  induction image with
  | intro _ _ _ occurring value _ length declared _ ih =>
      refine .intro (fun name => ?_) (fun name once => ?_) value length declared ih
      · rw [value?_eq_none_iff, occurring, Markup.attribute?_eq_none_iff]
      · rw [value, Markup.lastAttribute?_eq_attribute? once]

theorem isImage_of_bind {s : Schema} {root : Element} {b : Bound} (bound : bind s root = .ok b) :
    IsImage s root b := by
  by_cases named : root.name = s.name
  · rw [bind, if_pos named, bindNode_eq_ok_iff] at bound
    obtain ⟨conforms, rfl⟩ := bound
    exact isImage_image conforms
  · rw [bind, if_neg named] at bound
    cases bound

/-- In every document the attributes of an element are those of its tag, where no two have one
qualified name. Looking one up finds what is bound, if the tag does not give its name two prefixes. -/
theorem bind_looksUp {text : String} {root : Element} (parsed : Markup.parse text = .ok root) :
    (∀ node ∈ root.nodes, ∃ tag : OpeningTag, tag.OpensIn text.toList node ∧ tag.TellsApart node) ∧
      ∀ s b, bind s root = .ok b → LooksUp s root b := by
  refine ⟨fun node member => ?_, fun s b bound => (isImage_of_bind bound).looksUp⟩
  obtain ⟨tag, placed⟩ := Markup.opensIn_of_parse parsed member
  have ⟨_, _, _, _, opens⟩ := placed
  exact ⟨tag, placed, opens.tellsApart⟩

def prefixedText : String :=
  "<config xmlns:a=\"u\" a:failOn=\"warning\"><Analyzer parallelism=\"2\"/></config>"

/-- A threshold whose name has a prefix. -/
def prefixed : Element :=
  ⟨"config", [⟨"failOn", "warning"⟩], [⟨"Analyzer", [⟨"parallelism", "2"⟩], [], some ⟨1, 40⟩⟩],
    some ⟨1, 1⟩⟩

theorem bind_prefixed :
    Markup.parse prefixedText = .ok prefixed ∧
      (∀ node ∈ prefixed.nodes, ∃ tag : OpeningTag, tag.OpensIn prefixedText.toList node ∧
        tag.TellsApart node) ∧
      ∃ b, bind Schema.config prefixed = .ok b ∧ b.value? "failOn" = some (.severity .warning) ∧
        LooksUp Schema.config prefixed b := by
  have parsed : Markup.parse prefixedText = .ok prefixed := by rfl
  have bound : bind Schema.config prefixed = .ok (image Schema.config prefixed) := rfl
  obtain ⟨tags, looksUp⟩ := bind_looksUp parsed
  exact ⟨parsed, tags, _, bound, rfl, looksUp _ _ bound⟩

/-- A threshold that is said twice, once with a prefix. -/
def saidTwice : Element :=
  ⟨"config", [⟨"failOn", "error"⟩, ⟨"failOn", "warning"⟩], [], some ⟨1, 1⟩⟩

/-- Looking the threshold up finds the one without a prefix, but the other one is bound. -/
theorem bind_saidTwice :
    Markup.parse "<config xmlns:a=\"u\" failOn=\"error\" a:failOn=\"warning\"/>" = .ok saidTwice ∧
      ¬ (saidTwice.attributes.map (·.name)).Nodup ∧
      saidTwice.attribute? "failOn" = some "error" ∧
      convert "error" .severity = some (.severity .error) ∧
      ∃ b, bind Schema.config saidTwice = .ok b ∧ b.value? "failOn" = some (.severity .warning) :=
  ⟨rfl, by decide, rfl, rfl, image Schema.config saidTwice, rfl, rfl⟩

end Binding

end SourceLint
