import Mathlib.Data.List.Basic
import SourceLint.Position

/-! # Positions by counting

Reading a text from its start, one is at the line after the line feeds read and at the column
after the characters read since the last of them.
-/

namespace SourceLint.Position

/-- The place right after a text, by counting. -/
def behind (before : List Char) : Position :=
  ⟨before.count '\n' + 1, (before.reverse.takeWhile (· ≠ '\n')).length + 1⟩

@[simp] theorem after_nil (p : Position) : p.after [] = p := rfl

@[simp] theorem after_cons (p : Position) (c : Char) (cs : List Char) :
    p.after (c :: cs) = (p.next c).after cs := rfl

@[simp] theorem after_append (p : Position) (first second : List Char) :
    p.after (first ++ second) = (p.after first).after second :=
  List.foldl_append

theorem behind_concat (before : List Char) (c : Char) :
    behind (before ++ [c]) = (behind before).next c := by
  by_cases feed : c = '\n'
  · subst feed
    simp [behind, next]
  · simp [behind, next, feed]

/-- Counting agrees with reading one character after the other. -/
theorem behind_append (before cs : List Char) :
    behind (before ++ cs) = (behind before).after cs := by
  induction cs generalizing before with
  | nil => rw [List.append_nil, after_nil]
  | cons c cs ih => rw [List.append_cons, ih, behind_concat, after_cons]

theorem compare_next (p : Position) (c : Char) : compare p (p.next c) = .lt := by
  have split (q : Position) : compare p q = (compare p.line q.line).then (compare p.column q.column) :=
    rfl
  rw [split, next]
  split_ifs
  · rw [Nat.compare_eq_lt.mpr (Nat.lt_succ_self p.line)]
    rfl
  · rw [Nat.compare_eq_eq.mpr rfl, Nat.compare_eq_lt.mpr (Nat.lt_succ_self p.column)]
    rfl

end SourceLint.Position
