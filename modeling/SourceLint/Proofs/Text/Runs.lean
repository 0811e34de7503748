import Mathlib.Data.List.TakeWhile

/-! # Runs of characters

A run of characters of one kind ends where a character of another kind comes next. And a mark
that does not begin with its own end is found where it stands, not in what is in front of it.
-/

namespace SourceLint.Text

theorem forall_head?_cons {p : Char → Prop} {c : Char} (is : p c) (rest : List Char) :
    ∀ d ∈ (c :: rest).head?, p d := by
  intro d first
  cases first
  exact is

section

variable {p : Char → Bool} {cs rest : List Char}

theorem takeWhile_append_run (all : ∀ c ∈ cs, p c = true) (stops : ∀ c ∈ rest.head?, p c = false) :
    (cs ++ rest).takeWhile p = cs := by
  rw [List.takeWhile_append_of_pos all]
  cases rest with
  | nil => rw [List.takeWhile_nil, List.append_nil]
  | cons c rest =>
      rw [List.takeWhile_cons_of_neg (by simp [stops c rfl]), List.append_nil]

theorem dropWhile_append_run (all : ∀ c ∈ cs, p c = true) (stops : ∀ c ∈ rest.head?, p c = false) :
    (cs ++ rest).dropWhile p = rest := by
  rw [List.dropWhile_append_of_pos all]
  cases rest with
  | nil => rfl
  | cons c rest => rw [List.dropWhile_cons_of_neg (by simp [stops c rfl])]

end

namespace Each

variable (p : Char → Prop) [DecidablePred p]

/-- What is said of each character of a text is decided by running through the text, and not
through all characters that there are. -/
scoped instance (priority := high) decidableOfEach (cs : List Char) : Decidable (∀ c ∈ cs, p c) :=
  List.decidableBAll p cs

scoped instance (priority := high) decidableIfAny (o : Option Char) : Decidable (∀ c ∈ o, p c) :=
  Option.decidableForallMem o

end Each

/-- No end of the mark is a beginning of it. -/
def Unbordered (mark : List Char) : Prop :=
  ∀ n ∈ List.range mark.length, 0 < n → ¬ mark.drop n <+: mark

instance (mark : List Char) : Decidable (Unbordered mark) :=
  inferInstanceAs (Decidable (∀ n ∈ List.range mark.length, 0 < n → ¬ mark.drop n <+: mark))

/-- The mark does not begin within a text that does not hold it, even where it follows. -/
theorem Unbordered.not_prefix {mark cs tail : List Char} (unbordered : Unbordered mark)
    (absent : ¬ mark <:+: cs) (suffix : tail <:+ cs) (nonempty : tail ≠ []) (rest : List Char) :
    ¬ mark <+: tail ++ (mark ++ rest) := by
  intro begins
  by_cases short : tail.length < mark.length
  · have first : tail <+: mark :=
      List.prefix_of_prefix_length_le (List.prefix_append _ _) begins (Nat.le_of_lt short)
    obtain ⟨border, rfl⟩ := first
    have again : border <+: tail ++ border ++ rest := by
      rwa [List.prefix_append_right_inj] at begins
    have within : border <+: tail ++ border :=
      List.prefix_of_prefix_length_le again (List.prefix_append _ _) (by simp)
    refine unbordered tail.length (List.mem_range.mpr short) (List.length_pos_iff.mpr nonempty) ?_
    rwa [List.drop_left]
  · have within : mark <+: tail :=
      List.prefix_of_prefix_length_le begins (List.prefix_append _ _) (by omega)
    exact absent (within.isInfix.trans suffix.isInfix)

end SourceLint.Text
