import SourceLint.Proofs.Config.Lossless
import SourceLint.Proofs.Markup.Whereabouts

/-! # Attributes in another order

Whether an element conforms does not depend on the order of its attributes, nor on that of its
children. Where no two attributes of an element have one name, their order does not matter to what
is bound either.
-/

namespace SourceLint

open Markup (Attribute Element)

namespace Markup.Element

/-- One element of the tree has its attributes in another order. -/
inductive Reorders : Element → Element → Prop where
  | attributes (name : String) {attributes attributes' : List Attribute}
    (perm : attributes.Perm attributes') (children : List Element) (at_ : Option Position) :
    Reorders ⟨name, attributes, children, at_⟩ ⟨name, attributes', children, at_⟩
  | child (name : String) (attributes : List Attribute) (front : List Element)
    {child child' : Element} (inside : Reorders child child') (back : List Element)
    (at_ : Option Position) :
    Reorders ⟨name, attributes, front ++ child :: back, at_⟩
      ⟨name, attributes, front ++ child' :: back, at_⟩

/-- No element of the tree has two attributes of one name. -/
def DistinctNames (e : Element) : Prop :=
  ∀ node ∈ e.nodes, (node.attributes.map (·.name)).Nodup

theorem distinctNames_iff {e : Element} : e.DistinctNames ↔
    (e.attributes.map (·.name)).Nodup ∧ ∀ child ∈ e.children, child.DistinctNames := by
  rw [DistinctNames, Binding.nodes_eq, List.forall_mem_cons]
  simp only [mem_nodesOfEach]
  refine and_congr_right fun _ => ⟨fun all child member node inside => ?_, ?_⟩
  · exact all node ⟨child, member, inside⟩
  · rintro all node ⟨child, member, inside⟩
    exact all child member node inside

namespace Reorders

variable {e e' : Element}

theorem name (reordered : Reorders e e') : e'.name = e.name := by
  cases reordered <;> rfl

theorem position (reordered : Reorders e e') : e'.position = e.position := by
  cases reordered <;> rfl

theorem symm (reordered : Reorders e e') : Reorders e' e := by
  induction reordered with
  | attributes name perm children at_ => exact .attributes name perm.symm children at_
  | child name attributes front _ back at_ ih => exact .child name attributes front ih back at_

theorem attributes_perm (reordered : Reorders e e') : e.attributes.Perm e'.attributes := by
  cases reordered with
  | attributes _ perm => exact perm
  | child => exact .refl _

theorem distinctNames (reordered : Reorders e e') (distinct : e.DistinctNames) :
    e'.DistinctNames := by
  induction reordered with
  | attributes _ perm =>
      obtain ⟨here, below⟩ := distinctNames_iff.mp distinct
      exact distinctNames_iff.mpr ⟨(perm.map _).nodup_iff.mp here, below⟩
  | child _ _ _ _ _ _ ih =>
      obtain ⟨here, below⟩ := distinctNames_iff.mp distinct
      refine distinctNames_iff.mpr ⟨here, fun child member => ?_⟩
      simp only [List.mem_append, List.mem_cons] at below member
      rcases member with front | rfl | back
      · exact below child (.inl front)
      · exact ih (below _ (.inr (.inl rfl)))
      · exact below child (.inr (.inr back))

end Reorders

/-- Of attributes with different names the one of a name is found in any order. -/
theorem lastAttribute?_of_perm {e e' : Element} (perm : e.attributes.Perm e'.attributes)
    (distinct : (e.attributes.map (·.name)).Nodup) : e'.lastAttribute? = e.lastAttribute? := by
  funext name
  have distinct' := (perm.map (·.name)).nodup_iff.mp distinct
  by_cases occurs : ∃ a ∈ e.attributes, a.name = name
  · obtain ⟨a, member, rfl⟩ := occurs
    rw [Binding.lastAttribute?_of_nodup distinct member,
      Binding.lastAttribute?_of_nodup distinct' (perm.mem_iff.mp member)]
  · have absent {other : Element} (same : ∀ a, a ∈ other.attributes ↔ a ∈ e.attributes) :
        other.lastAttribute? name = none := by
      rw [lastAttribute?, Option.map_eq_none_iff, List.find?_eq_none]
      intro a member named
      exact occurs ⟨a, (same a).mp (List.mem_reverse.mp member), of_decide_eq_true named⟩
    rw [absent fun a => perm.symm.mem_iff, absent fun a => Iff.rfl]

end Markup.Element

namespace Binding

open Markup.Element (Reorders DistinctNames)

variable {s : Schema} {e e' : Element}

/-! ## Acceptance -/

/-- What conforms still does with its attributes and children in another order, and with children
that conform to whatever those did in whose place they stand. -/
theorem Conforms.rearranged (conforms : Conforms s e) (attributes : e.attributes.Perm e'.attributes)
    (names : (e.children.map (·.name)).Perm (e'.children.map (·.name)))
    (inside : ∀ child' ∈ e'.children, ∃ child ∈ e.children, child.name = child'.name ∧
      ∀ inner, Conforms inner child → Conforms inner child') : Conforms s e' := by
  cases conforms with
  | intro converts complete declared single present within =>
      refine .intro (fun a member => converts a (attributes.mem_iff.mpr member))
        (fun field known required => ?_) (fun child' member => ?_) (fun name inner known once => ?_)
        (fun name required => ?_) (fun child' member inner known => ?_)
      · obtain ⟨a, member, named⟩ := complete field known required
        exact ⟨a, attributes.mem_iff.mp member, named⟩
      · obtain ⟨child, there, named, _⟩ := inside child' member
        rw [← named]
        exact declared child there
      · have counted (l : List Element) :
            l.countP (·.name = name) = (l.map (·.name)).countP (· = name) := by
          rw [List.countP_map]
          rfl
        rw [counted, ← names.countP_eq, ← counted]
        exact single name inner known once
      · obtain ⟨child, member, named⟩ := present name required
        have there := names.mem_iff.mp (List.mem_map_of_mem member)
        obtain ⟨child', member', same⟩ := List.mem_map.mp there
        exact ⟨child', member', same.trans named⟩
      · obtain ⟨child, there, named, onward⟩ := inside child' member
        exact onward inner (within child there inner (named ▸ known))

theorem Conforms.of_reorders (conforms : Conforms s e) (reordered : Reorders e e') :
    Conforms s e' := by
  induction reordered generalizing s with
  | attributes _ perm =>
      exact conforms.rearranged perm (.refl _) fun child member =>
        ⟨child, member, rfl, fun _ inside => inside⟩
  | child _ _ front reordered back _ ih =>
      refine conforms.rearranged (.refl _) (by simp [reordered.name]) fun child' member => ?_
      simp only [List.mem_append, List.mem_cons] at member ⊢
      rcases member with member | rfl | member
      · exact ⟨child', .inl member, rfl, fun _ inside => inside⟩
      · exact ⟨_, .inr (.inl rfl), reordered.name.symm, fun _ => ih⟩
      · exact ⟨child', .inr (.inr member), rfl, fun _ inside => inside⟩

/-- Nor does the order of the children themselves matter. -/
theorem Conforms.of_perm {name : String} {attributes : List Attribute}
    {children children' : List Element} {at_ : Option Position}
    (conforms : Conforms s ⟨name, attributes, children, at_⟩)
    (perm : children.Perm children') : Conforms s ⟨name, attributes, children', at_⟩ :=
  conforms.rearranged (.refl _) (perm.map _) fun child member =>
    ⟨child, perm.mem_iff.mpr member, rfl, fun _ inside => inside⟩

/-! ## Images -/

/-- The values that are bound are those of the last attributes. -/
theorem Conforms.value?_image (conforms : Conforms s e) (name : String) :
    (image s e).value? name = (e.lastAttribute? name).bind fun raw =>
      (s.field? name).bind fun field => convert raw field.kind := by
  cases isImage_image conforms with
  | intro _ _ _ _ value => exact value name

/-- The same values are bound in any order of attributes with different names. -/
theorem Conforms.value?_image_eq (conforms : Conforms s e) (conforms' : Conforms s e')
    (perm : e.attributes.Perm e'.attributes) (distinct : (e.attributes.map (·.name)).Nodup) :
    (image s e').value? = (image s e).value? := by
  funext name
  rw [conforms.value?_image, conforms'.value?_image,
    Markup.Element.lastAttribute?_of_perm perm distinct]

theorem Conforms.value?_of_reorders (conforms : Conforms s e) (reordered : Reorders e e')
    (distinct : e.DistinctNames) : (image s e').value? = (image s e).value? :=
  conforms.value?_image_eq (conforms.of_reorders reordered) reordered.attributes_perm
    (Markup.Element.distinctNames_iff.mp distinct).1

/-- What is made of the children of a name stays the same where it does for one that is
reordered. -/
theorem Conforms.map_childrenNamed {A : Type} {make : Bound → A} {name : String} {inner : Schema}
    (conforms : Conforms s e) (reordered : Reorders e e') (distinct : e.DistinctNames)
    (known : s.child? name = some inner)
    (made : ∀ child child', Conforms inner child → Reorders child child' → child.DistinctNames →
      make (image inner child') = make (image inner child)) :
    ((image s e').childrenNamed name).map make = ((image s e).childrenNamed name).map make := by
  rw [conforms.childrenNamed known, (conforms.of_reorders reordered).childrenNamed known]
  cases reordered with
  | attributes => rfl
  | @child _ _ front child child' inside back _ =>
      rw [List.filter_append, List.filter_append, List.filter_cons, List.filter_cons, inside.name]
      split
      · rename_i named
        have within : child ∈ front ++ child :: back := by simp
        have below := (Markup.Element.distinctNames_iff.mp distinct).2 child within
        have found : s.child? child.name = some inner := by rwa [of_decide_eq_true named]
        simp only [List.map_append, List.map_cons]
        rw [made child child' (conforms.inside within found) inside below]
      · rfl

end Binding

end SourceLint
