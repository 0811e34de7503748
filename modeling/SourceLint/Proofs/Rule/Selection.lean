import Mathlib.Data.List.Nodup
import Mathlib.Data.List.Perm.Subperm
import SourceLint.Proofs.Rule.Ending

/-! # Choosing rules

A text chooses the rules that one of its entries names, each of them once, however often it is named
and whatever else there is in the text. As no two rules go by one key, it makes no difference in which
order those are listed that are left to choose from.
-/

namespace SourceLint.Rule

variable {key : String} {keys : List String} {r : Rule} {rules rules' others : List Rule}

/-- No two of the rules go by one key. -/
def NamedApart (rules : List Rule) : Prop :=
  ∀ r ∈ rules, ∀ s ∈ rules, ∀ key, r.goesBy key = true → s.goesBy key = true → r = s

theorem goesBy_iff : r.goesBy key = true ↔ key = r.name ∨ key = r.code := by
  rw [goesBy, Bool.or_eq_true, decide_eq_true_iff, decide_eq_true_iff, eq_comm,
    eq_comm (a := r.code)]

/-- What is taken goes by the key, and the others are what is left. -/
theorem of_take? (taken : take? key rules = some (r, others)) :
    r.goesBy key = true ∧ rules.Perm (r :: others) := by
  induction rules generalizing others with
  | nil => cases taken
  | cons s rest ih =>
      rw [take?] at taken
      split at taken
      · rename_i named
        cases taken
        exact ⟨named, .rfl⟩
      · obtain ⟨⟨r', left⟩, inside, same⟩ := Option.map_eq_some_iff.mp taken
        cases same
        obtain ⟨named, perm⟩ := ih inside
        exact ⟨named, (perm.cons s).trans (.swap _ _ _)⟩

theorem take?_eq_none_iff : take? key rules = none ↔ ∀ r ∈ rules, r.goesBy key = false := by
  induction rules with
  | nil => simp [take?]
  | cons s rest ih =>
      rw [take?]
      cases named : s.goesBy key with
      | true => simp [named]
      | false => simp [named, ih]

theorem choose_subperm (keys : List String) (rules : List Rule) :
    (choose keys rules).Subperm rules := by
  induction keys generalizing rules with
  | nil => exact rules.nil_subperm
  | cons key keys ih =>
      rw [choose]
      split
      · rename_i r others taken
        exact ((List.subperm_cons r).mpr (ih others)).trans (of_take? taken).2.symm.subperm
      · exact ih rules

/-- Each rule is chosen once. -/
theorem nodup_choose (once : rules.Nodup) (keys : List String) : (choose keys rules).Nodup := by
  obtain ⟨chosen, perm, inside⟩ := choose_subperm keys rules
  exact perm.nodup_iff.mp (once.sublist inside)

/-- The rules that some key names are chosen. -/
theorem mem_choose (apart : NamedApart rules) :
    r ∈ choose keys rules ↔ r ∈ rules ∧ ∃ key ∈ keys, r.goesBy key = true := by
  induction keys generalizing rules with
  | nil => simp [choose]
  | cons key keys ih =>
      rw [choose, List.exists_mem_cons_iff]
      split
      · rename_i s others taken
        obtain ⟨named, perm⟩ := of_take? taken
        have left : ∀ t ∈ others, t ∈ rules :=
          fun t inside => perm.mem_iff.mpr (List.mem_cons_of_mem s inside)
        rw [List.mem_cons, ih fun t inside u inside' =>
          apart t (left t inside) u (left u inside'), perm.mem_iff, List.mem_cons]
        constructor
        · rintro (rfl | ⟨inside, later⟩)
          · exact ⟨.inl rfl, .inl named⟩
          · exact ⟨.inr inside, .inr later⟩
        · rintro ⟨rfl | inside, here | later⟩
          · exact .inl rfl
          · exact .inl rfl
          · -- The key names `s` already, so a rule that it names as well is `s`.
            exact .inl (apart r (left r inside) s (perm.mem_iff.mpr List.mem_cons_self) key here
              named)
          · exact .inr ⟨inside, later⟩
      · rename_i none
        rw [ih apart]
        have unnamed := take?_eq_none_iff.mp none
        constructor
        · rintro ⟨inside, later⟩
          exact ⟨inside, .inr later⟩
        · rintro ⟨inside, here | later⟩
          · exact absurd here (by rw [unnamed r inside]; exact Bool.false_ne_true)
          · exact ⟨inside, later⟩

/-- Each key in turn chooses a rule that it names, if there is one left, and those that are left then
are listed in whatever order. -/
inductive Chooses : List String → List Rule → List Rule → Prop where
  | done (rules : List Rule) : Chooses [] rules []
  | named {key : String} {keys : List String} {r : Rule} {rules others chosen : List Rule}
      (named : r.goesBy key = true) (left : rules.Perm (r :: others))
      (rest : Chooses keys others chosen) : Chooses (key :: keys) rules (r :: chosen)
  | unnamed {key : String} {keys : List String} {rules chosen : List Rule}
      (none : ∀ r ∈ rules, r.goesBy key = false) (rest : Chooses keys rules chosen) :
      Chooses (key :: keys) rules chosen

theorem chooses_choose (keys : List String) (rules : List Rule) :
    Chooses keys rules (choose keys rules) := by
  induction keys generalizing rules with
  | nil => exact .done rules
  | cons key keys ih =>
      rw [choose]
      split
      · rename_i r others taken
        exact .named (of_take? taken).1 (of_take? taken).2 (ih others)
      · rename_i none
        exact .unnamed (take?_eq_none_iff.mp none) (ih rules)

/-- However those that are left are listed, the keys choose the same rules in the same order. -/
theorem Chooses.unique {chosen chosen' : List Rule} (apart : NamedApart rules)
    (chooses : Chooses keys rules chosen) (perm : rules.Perm rules')
    (chooses' : Chooses keys rules' chosen') : chosen = chosen' := by
  -- What is left on the one side is left on the other, in an order of its own.
  induction chooses generalizing rules' chosen' with
  | done =>
      cases chooses'
      rfl
  | @named key keys r rules others chosen named left _ ih =>
      have inside : r ∈ rules := left.mem_iff.mpr List.mem_cons_self
      cases chooses' with
      | @named _ _ r' _ others' _ named' left' rest' =>
          have inside' : r' ∈ rules := perm.mem_iff.mpr (left'.mem_iff.mpr List.mem_cons_self)
          obtain rfl := apart r inside r' inside' key named named'
          have sub : ∀ t ∈ others, t ∈ rules :=
            fun t inside => left.mem_iff.mpr (List.mem_cons_of_mem r inside)
          rw [ih (fun t inside u inside' => apart t (sub t inside) u (sub u inside'))
            ((left.symm.trans perm).trans left').cons_inv rest']
      | unnamed none _ =>
          have unnamed := none r (perm.mem_iff.mp inside)
          rw [named] at unnamed
          cases unnamed
  | unnamed none _ ih =>
      cases chooses' with
      | named named' left' _ =>
          have unnamed := none _ (perm.mem_iff.mpr (left'.mem_iff.mpr List.mem_cons_self))
          rw [named'] at unnamed
          cases unnamed
      | unnamed _ rest' => exact ih apart perm rest'

/-! ## The rules there are -/

theorem namedApart_all : NamedApart all := by
  have apart : ∀ key, LongLine.rule.goesBy key = true → UnusedFunction.rule.goesBy key = false := by
    intro key named
    rcases goesBy_iff.mp named with rfl | rfl <;> decide
  intro r first s second key named named'
  rcases mem_all_iff.mp first with rfl | rfl <;> rcases mem_all_iff.mp second with rfl | rfl
  · rfl
  · exact absurd named' (by rw [apart key named]; exact Bool.false_ne_true)
  · exact absurd named (by rw [apart key named']; exact Bool.false_ne_true)
  · rfl

theorem name_of_mem_all (builtin : r ∈ all) :
    r.name = longLineRule ∨ r.name = unusedFunctionRule := by
  rcases mem_all_iff.mp builtin with rfl | rfl
  · exact .inl rfl
  · exact .inr rfl

theorem eq_of_name_eq {s : Rule} (first : r ∈ all) (second : s ∈ all) (same : r.name = s.name) :
    r = s :=
  namedApart_all r first s second r.name (goesBy_iff.mpr (.inl rfl)) (goesBy_iff.mpr (.inl same))

theorem nodup_all : all.Nodup := by
  have names : (all.map (·.name)).Nodup := by decide
  exact List.Nodup.of_map _ names

/-- One of the entries of the text, but for the white space around it, names the rule. -/
def isChosen (choice : String) (r : Rule) : Bool :=
  (Text.cut ',' choice).any fun entry => r.goesBy (Text.trim entry)

theorem mem_chosenBy {choice : String} :
    r ∈ chosenBy choice ↔ r ∈ all ∧ isChosen choice r = true := by
  simp only [chosenBy, mem_choose namedApart_all, isChosen, List.any_eq_true, List.mem_map,
    exists_exists_and_eq_and]

theorem builtin_of_mem_chosenBy (choice : String) : ∀ r ∈ chosenBy choice, r ∈ all :=
  fun _ inside => (mem_chosenBy.mp inside).1

theorem nodup_chosenBy (choice : String) : (chosenBy choice).Nodup :=
  nodup_choose nodup_all _

/-- What a text chooses are the rules that it names, but for their order. -/
theorem chosenBy_perm (choice : String) : (chosenBy choice).Perm (all.filter (isChosen choice)) :=
  (List.perm_ext_iff_of_nodup (nodup_chosenBy choice) (nodup_all.filter _)).mpr fun r => by
    rw [mem_chosenBy, List.mem_filter]

end SourceLint.Rule
