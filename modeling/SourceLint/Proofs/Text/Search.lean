import Mathlib.Data.List.Infix
import SourceLint.Text.Search

/-! # Where a text can be found

A text that is searched can be cut at a character that stands in the text looked for at its ends at
most. Each of the two pieces keeps that character, and what is looked for is in one of them.
-/

namespace SourceLint.Text

variable {part before after middle word : List Char} {c : Char}

theorem holds_iff (part cs : List Char) : holds part cs = true ↔ part <:+: cs := by
  induction cs with
  | nil => rw [holds, List.isEmpty_iff, List.infix_nil]
  | cons c cs ih => rw [holds, Bool.or_eq_true, ih, List.isPrefixOf_iff_prefix, List.infix_cons_iff]

/-- Cut at a character that is not inside of it, what is found is in one of the pieces. -/
theorem infix_cut_iff (outside : c ∉ part.tail.dropLast) :
    part <:+: before ++ c :: after ↔ part <:+: before ++ [c] ∨ part <:+: c :: after := by
  constructor
  · intro found
    have cut : before ++ c :: after = (before ++ [c]) ++ after := by simp
    rw [cut] at found
    rcases List.infix_append_iff.mp found with inFront | behind | ⟨front, back, rfl, ends, begins⟩
    · exact .inl inFront
    · exact .inr (List.infix_cons behind)
    -- The cut goes through what is found, which then begins or ends there.
    · rcases List.suffix_concat_iff.mp ends with rfl | ⟨front, rfl, _⟩
      · exact .inr (List.infix_cons begins.isInfix)
      · rcases List.eq_nil_or_concat' back with rfl | ⟨back, d, rfl⟩
        · rw [List.append_nil]
          exact .inl ends.isInfix
        · cases front with
          | nil => exact .inr (List.cons_prefix_cons.mpr ⟨rfl, begins⟩).isInfix
          | cons a front =>
              have inside : (a :: front ++ [c] ++ (back ++ [d])).tail.dropLast =
                  front ++ c :: back := by
                change (front ++ [c] ++ (back ++ [d])).dropLast = front ++ c :: back
                rw [← List.append_assoc, List.dropLast_concat, List.append_assoc,
                  List.singleton_append]
              rw [inside] at outside
              simp at outside
  · rintro (inFront | behind)
    · exact inFront.trans ⟨[], after, by simp⟩
    · exact behind.trans (List.suffix_append _ _).isInfix

/-- Cut at a character that is not in it, what is found is in what remains. -/
theorem infix_drop_iff (foreign : c ∉ part) :
    part <:+: before ++ c :: after ↔ part <:+: before ∨ part <:+: after := by
  have outside : c ∉ part.tail.dropLast :=
    fun member => foreign (List.mem_of_mem_tail (List.mem_of_mem_dropLast member))
  rw [infix_cut_iff outside, List.infix_concat_iff, List.infix_cons_iff]
  constructor
  · rintro ((ends | inFront) | (begins | behind))
    · rcases List.suffix_concat_iff.mp ends with rfl | ⟨_, rfl, _⟩
      · exact .inl List.nil_infix
      · simp at foreign
    · exact .inl inFront
    · rcases List.prefix_cons_iff.mp begins with rfl | ⟨_, rfl, _⟩
      · exact .inl List.nil_infix
      · simp at foreign
    · exact .inr behind
  · rintro (inFront | behind)
    · exact .inl (.inr inFront)
    · exact .inr (.inr behind)

/-! ## Breaks -/

variable {isBreak : Char → Bool}

/-- What has two breaks is not found where there is one at most. -/
theorem not_infix_of_countP_le (breaks : 2 ≤ part.countP isBreak)
    (few : before.countP isBreak ≤ 1) : ¬ part <:+: before := by
  intro found
  have counted : part.countP isBreak ≤ before.countP isBreak := found.sublist.countP_le
  omega

/-- Around a word without a break nothing smaller that has two is found. -/
theorem infix_around_iff {first last : Char} (breaks : 2 ≤ part.countP isBreak)
    (plain : word.countP isBreak = 0) :
    part <:+: first :: (word ++ [last]) ↔ part = first :: (word ++ [last]) := by
  have one (c : Char) : [c].countP isBreak ≤ 1 := List.countP_le_length
  constructor
  · intro found
    rcases List.infix_cons_iff.mp found with begins | inside
    · rw [← List.cons_append] at begins ⊢
      rcases List.prefix_concat_iff.mp begins with whole | inFront
      · exact whole
      · refine absurd inFront.isInfix (not_infix_of_countP_le breaks ?_)
        rw [← List.singleton_append, List.countP_append, plain]
        exact one first
    · refine absurd inside (not_infix_of_countP_le breaks ?_)
      rw [List.countP_append, plain, Nat.zero_add]
      exact one last
  · intro same
    rw [same]

end SourceLint.Text
