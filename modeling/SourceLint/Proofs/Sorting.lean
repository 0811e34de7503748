import Mathlib.Data.List.Pairwise

/-! # Stable sorting

A merge sort keeps elements that compare equal in the order in which they came. An ordered list is
settled by the elements of each rank in their order, so there is one way to sort stably; and groups
of which each stands strictly behind those before it are sorted by putting them one behind the
other.
-/

namespace SourceLint

variable {A G : Type} {le : A → A → Bool}

/-- The two compare equal. -/
def ties (le : A → A → Bool) (a b : A) : Bool :=
  le a b && le b a

section Sorted

variable (trans : ∀ a b c, le a b → le b c → le a c) (total : ∀ a b, le a b || le b a)

include trans total

/-- Sorting keeps those elements in their order that all compare equal. -/
theorem filter_mergeSort {p : A → Bool} (tied : ∀ a b, p a → p b → le a b) (l : List A) :
    (l.mergeSort le).filter p = l.filter p := by
  have sorted : (l.filter p).Pairwise (le · ·) := by
    apply List.pairwise_iff_forall_sublist.mpr
    intro a b inside
    have both : ∀ x ∈ [a, b], p x := fun x member => (List.mem_filter.mp (inside.subset member)).2
    exact tied a b (both a (by simp)) (both b (by simp))
  have inside : (l.filter p).Sublist (l.mergeSort le) :=
    List.sublist_mergeSort trans total sorted List.filter_sublist
  have kept := inside.filter p
  rw [List.filter_filter, show (fun a => p a && p a) = p by simp] at kept
  have perm : ((l.mergeSort le).filter p).Perm (l.filter p) := (List.mergeSort_perm l le).filter p
  exact (kept.eq_of_length perm.length_eq.symm).symm

omit trans

theorem ties_self (a : A) : ties le a a = true := by
  have self := total a a
  rw [Bool.or_self] at self
  rw [ties, self, Bool.and_self]

/-- Ordered lists are settled by what there is of each rank. -/
theorem eq_of_filter_ties {l l' : List A} (ordered : l.Pairwise (le · ·))
    (ordered' : l'.Pairwise (le · ·)) (same : ∀ a, l.filter (ties le a) = l'.filter (ties le a)) :
    l = l' := by
  have inside {k k' : List A} (same : ∀ a, k.filter (ties le a) = k'.filter (ties le a)) {a : A}
      (member : a ∈ k) : a ∈ k' := by
    have here : a ∈ k.filter (ties le a) := List.mem_filter.mpr ⟨member, ties_self total a⟩
    rw [same a] at here
    exact (List.mem_filter.mp here).1
  have reflexive (a : A) : le a a = true := (Bool.and_eq_true_iff.mp (ties_self total a)).1
  induction l generalizing l' with
  | nil =>
      refine (List.eq_nil_iff_forall_not_mem.mpr fun a member => ?_).symm
      cases inside (fun a => (same a).symm) member
  | cons a rest ih =>
      cases l' with
      | nil => cases inside same List.mem_cons_self
      | cons b rest' =>
          obtain ⟨first, tail⟩ := List.pairwise_cons.mp ordered
          obtain ⟨first', tail'⟩ := List.pairwise_cons.mp ordered'
          -- Neither stands before the other, so both are the first one of their rank.
          have below : le a b = true := by
            rcases List.mem_cons.mp (inside (fun a => (same a).symm) List.mem_cons_self) with
              same | later
            · exact same ▸ reflexive b
            · exact first b later
          have above : le b a = true := by
            rcases List.mem_cons.mp (inside same List.mem_cons_self) with same | later
            · exact same ▸ reflexive a
            · exact first' a later
          have heads := same a
          rw [List.filter_cons_of_pos (ties_self total a), List.filter_cons_of_pos
            (show ties le a b = true by rw [ties, below, above, Bool.and_self])] at heads
          obtain ⟨rfl, _⟩ := List.cons_eq_cons.mp heads
          refine congrArg (a :: ·) (ih tail tail' fun c => ?_)
          have tails := same c
          rw [List.filter_cons, List.filter_cons] at tails
          split at tails
          · exact (List.cons_eq_cons.mp tails).2
          · exact tails

end Sorted

/-- The elements of a list may be taken in any order if what they lead to may. -/
theorem flatMap_eq_of_perm {A B : Type} {g : A → List B} {l l' : List A} (perm : l.Perm l')
    (commute : ∀ x ∈ l, ∀ y ∈ l, g x ++ g y = g y ++ g x) : l.flatMap g = l'.flatMap g := by
  induction perm with
  | nil => rfl
  | cons x _ ih =>
      rw [List.flatMap_cons, List.flatMap_cons, ih fun y inside z inside' =>
        commute y (List.mem_cons_of_mem _ inside) z (List.mem_cons_of_mem _ inside')]
  | swap x y l =>
      rw [List.flatMap_cons, List.flatMap_cons, List.flatMap_cons, List.flatMap_cons,
        ← List.append_assoc, ← List.append_assoc, commute x (by simp) y (by simp)]
  | trans first _ ih ih' =>
      rw [ih commute, ih' fun x inside y inside' =>
        commute x (first.mem_iff.mpr inside) y (first.mem_iff.mpr inside')]

section Groups

variable (trans : ∀ a b c, le a b → le b c → le a c) (total : ∀ a b, le a b || le b a)

include trans

theorem le_of_ties {a b c : A} (first : ties le c a = true) (second : ties le c b = true) :
    le a b = true := by
  simp only [ties, Bool.and_eq_true] at first second
  exact trans a c b first.2 second.1

/-- Of two groups that both had something of one rank, neither would stand behind the other. -/
theorem filter_ties_eq_nil_or {l l' : List A}
    (apart : ∀ a ∈ l, ∀ b ∈ l', le a b = true ∧ le b a = false) (c : A) :
    l.filter (ties le c) = [] ∨ l'.filter (ties le c) = [] := by
  by_contra both
  obtain ⟨here, there⟩ := not_or.mp both
  obtain ⟨a, memberA⟩ := List.exists_mem_of_ne_nil _ here
  obtain ⟨b, memberB⟩ := List.exists_mem_of_ne_nil _ there
  obtain ⟨inA, tiedA⟩ := List.mem_filter.mp memberA
  obtain ⟨inB, tiedB⟩ := List.mem_filter.mp memberB
  have behind := (apart a inA b inB).2
  rw [le_of_ties trans tiedB tiedA] at behind
  cases behind

include total

/-- Where groups are ordered in themselves, and each stands strictly behind those before it, sorting
them in any order puts them one behind the other. -/
theorem mergeSort_flatMap {f : G → List A} {l l' : List G} (perm : l.Perm l')
    (ordered : ∀ g ∈ l, (f g).Pairwise (le · ·))
    (apart : l.Pairwise fun x y => ∀ a ∈ f x, ∀ b ∈ f y, le a b = true ∧ le b a = false) :
    (l'.flatMap f).mergeSort le = l.flatMap f := by
  refine eq_of_filter_ties total (List.pairwise_mergeSort trans total _) ?_ fun c => ?_
  · rw [List.pairwise_flatMap]
    exact ⟨ordered, apart.imp fun before a first b later => (before a first b later).1⟩
  · rw [filter_mergeSort trans total (fun _ _ => le_of_ties trans), List.filter_flatMap,
      List.filter_flatMap]
    have swaps : l.Pairwise fun x y =>
        (f x).filter (ties le c) ++ (f y).filter (ties le c) =
          (f y).filter (ties le c) ++ (f x).filter (ties le c) := by
      refine apart.imp fun before => ?_
      rcases filter_ties_eq_nil_or trans before c with none | none <;> simp [none]
    refine (flatMap_eq_of_perm perm fun x first y second => ?_).symm
    refine swaps.forall_of_forall_of_flip (fun x _ => ?_) (swaps.imp fun same => ?_) first second
    · rfl
    · exact same.symm

end Groups

end SourceLint
