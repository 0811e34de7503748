import SourceLint.Proofs.Analysis.Results
import SourceLint.Proofs.Sorting

/-! # The order of findings

Findings are sorted by place: the components of the path, then the line, then the column.
The sort takes nothing away and adds nothing, and findings of one place stay in the order
in which they came.
-/

namespace SourceLint

namespace Diagnostic

instance : Std.TransCmp comparePlaces :=
  inferInstanceAs (Std.TransCmp (compareLex (compareOn fun k : Key => k.1)
    (compareLex (compareOn fun k : Key => k.2.1) (compareOn fun k : Key => k.2.2.1))))

theorem le_trans (a b c : Diagnostic) (first : le a b) (second : le b c) : le a c := by
  rw [le_key] at *
  exact Std.TransCmp.isLE_trans first second

theorem le_total (a b : Diagnostic) : le a b || le b a := by
  rw [le_key, le_key, Bool.or_eq_true]
  by_cases first : (comparePlaces a.key b.key).isLE
  · exact .inl first
  · exact .inr (Ordering.isLE_of_eq_lt (Std.OrientedCmp.lt_of_not_isLE first))

/-- The two stand at one place. -/
def samePlace (a b : Diagnostic) : Bool :=
  le a b && le b a

/-- The sorted diagnostics are the given ones in the order of their places, those of one
place in the order given. -/
structure Arranges (sorted given : List Diagnostic) : Prop where
  perm : sorted.Perm given
  ordered : sorted.Pairwise (le · ·)
  stable : ∀ d : Diagnostic, sorted.filter d.samePlace = given.filter d.samePlace

theorem arranges_mergeSort (given : List Diagnostic) : Arranges (given.mergeSort le) given where
  perm := List.mergeSort_perm given le
  ordered := List.pairwise_mergeSort le_trans le_total given
  stable d := by
    apply filter_mergeSort le_trans le_total
    intro a b first second
    simp only [samePlace, Bool.and_eq_true] at first second
    exact le_trans a d b first.2 second.1

/-- There is one way to arrange diagnostics. -/
theorem Arranges.unique {sorted sorted' given : List Diagnostic} (first : Arranges sorted given)
    (second : Arranges sorted' given) : sorted = sorted' :=
  eq_of_filter_ties le_total first.ordered second.ordered fun d =>
    (first.stable d).trans (second.stable d).symm

theorem Arranges.filter {sorted given : List Diagnostic} (arranges : Arranges sorted given)
    (kept : Diagnostic → Bool) : Arranges (sorted.filter kept) (given.filter kept) where
  perm := arranges.perm.filter kept
  ordered := arranges.ordered.filter kept
  stable d := by
    have swap (l : List Diagnostic) :
        (l.filter kept).filter d.samePlace = (l.filter d.samePlace).filter kept := by
      simp only [List.filter_filter, Bool.and_comm]
    rw [swap, swap, arranges.stable]

/-- Some of the diagnostics are arranged as all of them are. -/
theorem mergeSort_filter (kept : Diagnostic → Bool) (given : List Diagnostic) :
    (given.filter kept).mergeSort le = (given.mergeSort le).filter kept :=
  (arranges_mergeSort _).unique ((arranges_mergeSort given).filter kept)

end Diagnostic

end SourceLint
