import Mathlib.Data.List.Basic
import SourceLint.Proofs.Text.Runs
import SourceLint.Text.Lines

/-! # The lines of a text

A line reaches from one line feed to the next, or from the last one to the end of the text if
something is left there. What the text is cut into are these lines, each at its number. A line
takes the columns of its tabs and its other characters together. Added up in a machine word these
start from zero again at `2 ^ 64`, so that a line with more of them can seem short.
-/

namespace SourceLint.Text

variable {cs before after body more line : List Char}

/-- A line without the carriage return that its line feed takes with it. -/
def withoutReturn (body : List Char) : List Char :=
  if body.getLast? = some '\r' then body.dropLast else body

/-- What comes behind this is at the start of a line. -/
def EndsLine (before : List Char) : Prop :=
  ∀ c ∈ before.getLast?, c = '\n'

/-- The text has the line `body` at that number, counted from zero, between what is in front of it
and what is behind. A line feed ends the line, or the text does if the line is not empty. -/
structure HasLine (text : List Char) (number : Nat) (before body after : List Char) : Prop where
  split : text = before ++ (body ++ after)
  counts : before.count '\n' = number
  fresh : EndsLine before
  feedless : '\n' ∉ body
  ends : (∃ more, after = '\n' :: more) ∨ after = [] ∧ body ≠ []

/-- The text has this line at that number, counted from one. -/
inductive IsLine (text : List Char) : Nat → List Char → Prop where
  /-- A line feed ends the line, and takes a carriage return with it. -/
  | closed {before body more : List Char} (split : text = before ++ (body ++ '\n' :: more))
    (fresh : EndsLine before) (feedless : '\n' ∉ body) :
    IsLine text (before.count '\n' + 1) (withoutReturn body)
  /-- The text ends with the line, which is then all that is left, and something. -/
  | last {before line : List Char} (split : text = before ++ line) (fresh : EndsLine before)
    (feedless : '\n' ∉ line) (nonempty : line ≠ []) :
    IsLine text (before.count '\n' + 1) line

/-! ## Texts line by line -/

/-- What holds of a text when it holds of what is behind its first line holds of every text. -/
theorem byLines {motive : List Char → Prop} (empty : motive [])
    (last : ∀ line, '\n' ∉ line → line ≠ [] → motive line)
    (closed : ∀ body more, '\n' ∉ body → motive more → motive (body ++ '\n' :: more))
    (cs : List Char) : motive cs := by
  by_cases feed : '\n' ∈ cs
  · obtain ⟨body, more, split, feedless⟩ := List.eq_append_cons_of_mem feed
    rw [split]
    exact closed body more feedless (byLines empty last closed more)
  · by_cases nonempty : cs = []
    · exact nonempty ▸ empty
    · exact last cs feed nonempty
termination_by cs.length
decreasing_by
  rw [split, List.length_append, List.length_cons]
  omega

theorem pieces_of_feedless (feedless : '\n' ∉ line) (nonempty : line ≠ []) :
    pieces line = [line] := by
  induction line with
  | nil => exact absurd rfl nonempty
  | cons c line ih =>
      obtain ⟨other, later⟩ := not_or.mp (mt List.mem_cons.mpr feedless)
      rw [pieces, if_neg (Ne.symm other)]
      cases line with
      | nil => rfl
      | cons d line => rw [ih later (List.cons_ne_nil d line)]

theorem pieces_closed (feedless : '\n' ∉ body) (more : List Char) :
    pieces (body ++ '\n' :: more) = (body ++ ['\n']) :: pieces more := by
  induction body with
  | nil => exact if_pos rfl
  | cons c body ih =>
      obtain ⟨other, later⟩ := not_or.mp (mt List.mem_cons.mpr feedless)
      rw [List.cons_append, pieces, if_neg (Ne.symm other), ih later]
      rfl

theorem lines_of_feedless (feedless : '\n' ∉ line) (nonempty : line ≠ []) :
    lines line = [line] := by
  have ends : line.getLast? ≠ some '\n' := fun last => feedless (List.mem_of_getLast? last)
  rw [lines, pieces_of_feedless feedless nonempty, List.map_singleton, dropLineEnd, if_neg ends]

theorem lines_closed (feedless : '\n' ∉ body) (more : List Char) :
    lines (body ++ '\n' :: more) = withoutReturn body :: lines more := by
  have first : dropLineEnd (body ++ ['\n']) = withoutReturn body := by
    rw [dropLineEnd, List.getLast?_concat, if_pos rfl, List.dropLast_concat, withoutReturn]
  rw [lines, pieces_closed feedless, List.map_cons, first, lines]

/-! ## Lines by their numbers -/

theorem endsLine_nil : EndsLine [] := by
  intro c last
  cases last

theorem EndsLine.eq_nil (fresh : EndsLine before) (feedless : '\n' ∉ before) : before = [] := by
  cases last : before.getLast? with
  | none => exact List.getLast?_eq_none_iff.mp last
  | some c =>
      obtain rfl := fresh c last
      exact absurd (List.mem_of_getLast? last) feedless

theorem EndsLine.of_behind (fresh : EndsLine (body ++ '\n' :: before)) : EndsLine before := by
  intro c last
  apply fresh c
  rw [List.getLast?_append, List.getLast?_cons, last]
  rfl

/-- The start of a line is that of the text, or comes behind the first line. -/
theorem EndsLine.cases (fresh : EndsLine before) (feedless : '\n' ∉ body)
    (split : body ++ '\n' :: more = before ++ after) :
    before = [] ∨ ∃ between, before = body ++ '\n' :: between ∧ EndsLine between ∧
      more = between ++ after := by
  rcases List.append_eq_append_iff.mp split with ⟨rest, rfl, tail⟩ | ⟨rest, rfl, -⟩
  · cases rest with
    | nil => exact .inl (fresh.eq_nil (by simpa using feedless))
    | cons c between =>
        obtain ⟨rfl, rfl⟩ := List.cons_eq_cons.mp tail
        exact .inr ⟨between, rfl, fresh.of_behind, rfl⟩
  · exact .inl (fresh.eq_nil fun feed => feedless (List.mem_append_left rest feed))

theorem EndsLine.behind (fresh : EndsLine before) (body : List Char) :
    EndsLine (body ++ '\n' :: before) := by
  intro c last
  rw [List.getLast?_append, List.getLast?_cons] at last
  cases ends : before.getLast? with
  | none =>
      rw [ends] at last
      exact (Option.some.inj last).symm
  | some d =>
      rw [ends] at last
      exact Option.some.inj last ▸ fresh d ends

theorem count_behind (feedless : '\n' ∉ body) (between : List Char) :
    (body ++ '\n' :: between).count '\n' = between.count '\n' + 1 := by
  rw [List.count_append, List.count_eq_zero.mpr feedless, List.count_cons_self, Nat.zero_add]

/-- A text has one first line. -/
theorem eq_of_closed {other rest : List Char} (feedless : '\n' ∉ body) (feedless' : '\n' ∉ other)
    (split : body ++ '\n' :: more = other ++ '\n' :: rest) : body = other := by
  have first {line : List Char} (plain : '\n' ∉ line) (behind : List Char) :
      (line ++ '\n' :: behind).takeWhile (· ≠ '\n') = line := by
    refine takeWhile_append_run (fun c member => decide_eq_true ?_) ?_
    · rintro rfl
      exact plain member
    · exact forall_head?_cons (by simp) behind
  rw [← first feedless more, split, first feedless']

theorem not_hasLine_nil {number : Nat} : ¬ HasLine [] number before body after := by
  rintro ⟨split, -, -, -, ends⟩
  simp only [List.nil_eq, List.append_eq_nil_iff] at split
  rcases ends with ⟨more, feed⟩ | ⟨-, nonempty⟩
  · simp [split.2.2] at feed
  · exact nonempty split.2.1

theorem hasLine_of_feedless_iff {number : Nat} (feedless : '\n' ∉ cs) (nonempty : cs ≠ []) :
    HasLine cs number before body after ↔ number = 0 ∧ before = [] ∧ body = cs ∧ after = [] := by
  constructor
  · rintro ⟨split, rfl, fresh, -, ends⟩
    rw [split] at feedless
    obtain rfl := fresh.eq_nil fun feed => feedless (List.mem_append_left _ feed)
    rcases ends with ⟨more, rfl⟩ | ⟨rfl, -⟩
    · simp at feedless
    · simpa using split.symm
  · rintro ⟨rfl, rfl, rfl, rfl⟩
    exact ⟨by simp, rfl, endsLine_nil, feedless, .inr ⟨rfl, nonempty⟩⟩

/-- The lines of a text are its first line and those of what comes behind that. -/
theorem hasLine_closed_iff {number : Nat} (feedless : '\n' ∉ line) :
    HasLine (line ++ '\n' :: more) number before body after ↔
      number = 0 ∧ before = [] ∧ body = line ∧ after = '\n' :: more ∨
        ∃ n between, number = n + 1 ∧ before = line ++ '\n' :: between ∧
          HasLine more n between body after := by
  constructor
  · rintro ⟨split, rfl, fresh, feedless', ends⟩
    rcases fresh.cases feedless split with rfl | ⟨between, rfl, fresh', rfl⟩
    · rw [List.nil_append] at split
      rcases ends with ⟨rest, rfl⟩ | ⟨rfl, -⟩
      · obtain rfl := eq_of_closed feedless feedless' split
        exact .inl ⟨rfl, rfl, rfl, (List.append_cancel_left split).symm⟩
      · rw [List.append_nil] at split
        simp [← split] at feedless'
    · exact .inr ⟨_, between, count_behind feedless between, rfl, rfl, rfl, fresh', feedless', ends⟩
  · rintro (⟨rfl, rfl, rfl, rfl⟩ | ⟨n, between, rfl, rfl, split, rfl, fresh, feedless', ends⟩)
    · exact ⟨rfl, rfl, endsLine_nil, feedless, .inl ⟨more, rfl⟩⟩
    · exact ⟨by simp [split], count_behind feedless between, fresh.behind line, feedless', ends⟩

/-- A line goes by the next number when that is counted from one. -/
theorem isLine_iff_hasLine {number : Nat} : IsLine cs number line ↔
    ∃ n before body after, HasLine cs n before body after ∧ number = n + 1 ∧
      line = if after = [] then body else withoutReturn body := by
  constructor
  · intro is
    cases is with
    | @closed before body more split fresh feedless =>
        exact ⟨_, before, body, _, ⟨split, rfl, fresh, feedless, .inl ⟨more, rfl⟩⟩, rfl, by simp⟩
    | @last before line split fresh feedless nonempty =>
        exact ⟨_, before, line, [], ⟨by simpa using split, rfl, fresh, feedless,
          .inr ⟨rfl, nonempty⟩⟩, rfl, by simp⟩
  · rintro ⟨n, before, body, after, ⟨split, rfl, fresh, feedless, ends⟩, rfl, rfl⟩
    rcases ends with ⟨more, rfl⟩ | ⟨rfl, nonempty⟩
    · exact .closed split fresh feedless
    · rw [if_pos rfl]
      exact .last (by simpa using split) fresh feedless nonempty

theorem not_isLine_nil {number : Nat} : ¬ IsLine [] number line := by
  simp [isLine_iff_hasLine, not_hasLine_nil]

theorem isLine_of_feedless_iff {number : Nat} (feedless : '\n' ∉ cs) (nonempty : cs ≠ []) :
    IsLine cs number line ↔ number = 1 ∧ line = cs := by
  simp [isLine_iff_hasLine, hasLine_of_feedless_iff feedless nonempty, and_comm]

theorem isLine_closed_iff {number : Nat} (feedless : '\n' ∉ body) :
    IsLine (body ++ '\n' :: more) number line ↔
      number = 1 ∧ line = withoutReturn body ∨ ∃ n, number = n + 1 ∧ IsLine more n line := by
  simp only [isLine_iff_hasLine, hasLine_closed_iff feedless]
  constructor
  · rintro ⟨_, before, rest, after, ⟨rfl, rfl, rfl, rfl⟩ | ⟨n, between, rfl, rfl, has⟩, rfl, rfl⟩
    · exact .inl ⟨rfl, rfl⟩
    · exact .inr ⟨_, rfl, n, between, rest, after, has, rfl, rfl⟩
  · rintro (⟨rfl, rfl⟩ | ⟨_, rfl, n, between, rest, after, has, rfl, rfl⟩)
    · exact ⟨0, [], body, _, .inl ⟨rfl, rfl, rfl, rfl⟩, rfl, rfl⟩
    · exact ⟨n + 1, _, rest, after, .inr ⟨n, between, rfl, rfl, has⟩, rfl, rfl⟩

/-- What the text is cut into are its lines, the first one at number one. -/
theorem getElem?_lines_iff {i : Nat} : (lines cs)[i]? = some line ↔ IsLine cs (i + 1) line := by
  induction cs using byLines generalizing i with
  | empty => simp [lines, pieces, not_isLine_nil]
  | last cs feedless nonempty =>
      rw [lines_of_feedless feedless nonempty, isLine_of_feedless_iff feedless nonempty]
      cases i <;> simp [eq_comm]
  | closed body more feedless ih =>
      rw [lines_closed feedless, isLine_closed_iff feedless]
      cases i with
      | zero =>
          have none : ¬ IsLine more 0 line := by rintro ⟨⟩
          simp [eq_comm, none]
      | succ i => simp [ih]

theorem isLine_iff {number : Nat} :
    IsLine cs number line ↔ ∃ i, number = i + 1 ∧ (lines cs)[i]? = some line := by
  simp only [getElem?_lines_iff]
  constructor
  · intro is
    cases is with
    | closed split fresh feedless => exact ⟨_, rfl, .closed split fresh feedless⟩
    | last split fresh feedless nonempty => exact ⟨_, rfl, .last split fresh feedless nonempty⟩
  · rintro ⟨i, rfl, is⟩
    exact is

/-- A number has one line. -/
theorem IsLine.unique {number : Nat} {other : List Char} (is : IsLine cs number line)
    (is' : IsLine cs number other) : line = other := by
  obtain ⟨i, rfl, found⟩ := isLine_iff.mp is
  exact Option.some.inj (found.symm.trans (getElem?_lines_iff.mpr is'))

/-! ## Columns -/

/-- The columns of a line: so many for each tab, and one for every other character. -/
def columnsOf (tabWidth : Nat) (line : List Char) : Nat :=
  tabWidth * line.count '\t' + line.countP (· ≠ '\t')

theorem columnsOf_cons (tabWidth : Nat) (c : Char) (line : List Char) :
    columnsOf tabWidth (c :: line) = columns tabWidth c + columnsOf tabWidth line := by
  by_cases tab : c = '\t'
  · subst tab
    simp [columnsOf, columns, Nat.mul_add, Nat.add_comm, Nat.add_assoc]
  · simp [columnsOf, columns, tab, Nat.add_comm, Nat.add_left_comm]

/-- Adding up a line character by character gives its columns, as far as a machine word holds them. -/
theorem width_eq (tabWidth : Nat) (line : List Char) :
    width tabWidth line = columnsOf tabWidth line % UInt64.size := by
  have fold (n : UInt64) :
      (line.foldl (fun n c => n + UInt64.ofNat (columns tabWidth c)) n).toNat =
        (n.toNat + columnsOf tabWidth line) % UInt64.size := by
    induction line generalizing n with
    | nil => exact (Nat.mod_eq_of_lt n.toNat_lt).symm
    | cons c line ih =>
        have step : (n + UInt64.ofNat (columns tabWidth c)).toNat =
            (n.toNat + columns tabWidth c) % UInt64.size := by
          rw [UInt64.toNat_add, UInt64.toNat_ofNat']
          exact Nat.add_mod_mod _ _ _
        rw [List.foldl_cons, ih, step, columnsOf_cons, Nat.mod_add_mod, Nat.add_assoc]
  rw [width, fold, UInt64.toNat_zero, Nat.zero_add]

theorem width_le (tabWidth : Nat) (line : List Char) :
    width tabWidth line ≤ columnsOf tabWidth line := by
  rw [width_eq]
  exact Nat.mod_le _ _

theorem columnsOf_one (line : List Char) : columnsOf 1 line = line.length := by
  induction line with
  | nil => rfl
  | cons c line ih =>
      have one : columns 1 c = 1 := by rw [columns, ite_self]
      rw [columnsOf_cons, one, ih, List.length_cons, Nat.add_comm]

theorem columnsOf_tabless (tabWidth : Nat) (tabless : '\t' ∉ line) :
    columnsOf tabWidth line = line.length := by
  rw [← columnsOf_one, columnsOf, columnsOf, List.count_eq_zero.mpr tabless, Nat.mul_zero,
    Nat.mul_zero]

/-- A column of a line is one of those that some character on it takes. -/
theorem exists_reaching {tabWidth column : Nat} (within : column < columnsOf tabWidth line) :
    ∃ before c after, line = before ++ c :: after ∧ columnsOf tabWidth before ≤ column ∧
      column < columnsOf tabWidth (before ++ [c]) := by
  induction line generalizing column with
  | nil => exact absurd within (Nat.not_lt_zero column)
  | cons c line ih =>
      rw [columnsOf_cons] at within
      by_cases first : column < columns tabWidth c
      · refine ⟨[], c, line, rfl, Nat.zero_le column, ?_⟩
        rwa [List.nil_append, columnsOf_cons]
      · obtain ⟨before, d, after, rfl, above, below⟩ :=
          @ih (column - columns tabWidth c) (by omega)
        refine ⟨c :: before, d, after, rfl, ?_, ?_⟩
        · rw [columnsOf_cons]
          omega
        · rw [List.cons_append, columnsOf_cons]
          omega

end SourceLint.Text
