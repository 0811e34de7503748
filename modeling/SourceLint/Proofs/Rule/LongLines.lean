import Mathlib.Data.List.Range
import SourceLint.Config.Validation
import SourceLint.Proofs.Text.Decimal
import SourceLint.Proofs.Text.Lines
import SourceLint.Rule.LongLine

/-! # Which lines are too long, and where

The line rule finds a violation for every line with more columns than the bound, in the order of
the lines, and for no other, as long as a machine word holds the columns of the line. Tabs can be set
so wide that it does not, and such a line may be passed over. The rule reports the first column past
the bound, which some character of the line takes. That is a column as it is shown, with tabs drawn
out, and not the number of a character: only on a line of more characters than the bound is there a
character of that number.
-/

namespace SourceLint

open Text (IsLine columnsOf lines width)

/-- The number that a setting comes to: the one that its literal spells, if there is a literal that
spells a positive one, and otherwise the default. -/
inductive IsSetting (literal : Option String) (default : Nat) : Nat → Prop where
  | given {raw : String} {n : Nat} (written : literal = some raw) (spells : Text.Spells raw n)
    (positive : 0 < n) (fits : n ≤ Text.maxWord) : IsSetting literal default n
  | byDefault (senseless : ∀ raw, literal = some raw → ¬ Text.SpellsPositive raw) :
    IsSetting literal default default

theorem IsSetting.pos {literal : Option String} {default n : Nat}
    (setting : IsSetting literal default n) (positive : 0 < default) : 0 < n := by
  cases setting with
  | given _ _ positive _ => exact positive
  | byDefault => exact positive

namespace Config

end Config

/-- The place is that of a character of the text, by the number of its line and its own number on
that line. -/
def Location.IsIn (l : Location) (content : String) : Prop :=
  ∃ line, IsLine content.toList l.line line ∧ 0 < l.column ∧ l.column ≤ line.length

namespace LongLine

variable {config : Config} {file : SourceFile} {v : Violation}

/-! ## The lines found -/

/-- The lines from number `number` on that are too wide, with their numbers. -/
def overlong (max tabWidth number : Nat) (lines : List (List Char)) : List (List Char × Nat) :=
  (lines.zipIdx number).filter fun line => max < width tabWidth line.1

theorem violationsFrom_eq (path : Path) (max tabWidth number : Nat) (lines : List (List Char)) :
    violationsFrom path max tabWidth number lines =
      (overlong max tabWidth number lines).map fun line =>
        violation path line.2 (width tabWidth line.1) max := by
  induction lines generalizing number with
  | nil => rfl
  | cons cs rest ih =>
      rw [violationsFrom, ih, overlong, overlong, List.zipIdx_cons, List.filter_cons]
      by_cases long : max < width tabWidth cs
      · simp [long]
      · simp [long]

theorem violations_eq (config : Config) (file : SourceFile) : violations config file =
    (overlong config.maxLineLength config.tabWidth 1 (lines file.content.toList)).map fun line =>
      violation file.path line.2 (width config.tabWidth line.1) config.maxLineLength :=
  violationsFrom_eq _ _ _ _ _

theorem mem_overlong_iff {max tabWidth number : Nat} {cs line : List Char} :
    (line, number) ∈ overlong max tabWidth 1 (lines cs) ↔
      IsLine cs number line ∧ max < width tabWidth line := by
  rw [overlong, List.mem_filter, decide_eq_true_eq, and_congr_left_iff]
  intro _
  rw [List.mk_mem_zipIdx_iff_le_and_getElem?_sub, Text.isLine_iff]
  constructor
  · rintro ⟨positive, found⟩
    exact ⟨number - 1, by omega, found⟩
  · rintro ⟨i, rfl, found⟩
    exact ⟨by omega, by simpa using found⟩

theorem mem_violations_iff : v ∈ violations config file ↔
    ∃ number line, IsLine file.content.toList number line ∧
      config.maxLineLength < width config.tabWidth line ∧
      v = violation file.path number (width config.tabWidth line) config.maxLineLength := by
  rw [violations_eq, List.mem_map]
  constructor
  · rintro ⟨⟨line, number⟩, member, rfl⟩
    obtain ⟨is, long⟩ := mem_overlong_iff.mp member
    exact ⟨number, line, is, long, rfl⟩
  · rintro ⟨number, line, is, long, rfl⟩
    exact ⟨(line, number), mem_overlong_iff.mpr ⟨is, long⟩, rfl⟩

/-- A tree with nothing in it; the line rule does not look at it. -/
def emptyTree : Source.Tree fun _ => True :=
  default

/-- A function that calls another. -/
def calling : SourceFile :=
  ⟨⟨"/p/a.rs"⟩, "fn f() \x7b\n\t\tg();\n\x7d\n", ⟨"a.rs"⟩⟩

/-- A place at a line of the text is that of a character if the line has so many. -/
theorem isIn_iff {content : String} {l : Location} {line : List Char}
    (is : IsLine content.toList l.line line) :
    l.IsIn content ↔ 0 < l.column ∧ l.column ≤ line.length := by
  constructor
  · rintro ⟨other, is', inside⟩
    rwa [is.unique is']
  · intro inside
    exact ⟨line, is, inside⟩

/-- The violation is at a line of the file, in a column that some character of the line takes. The
column is the number of a character of the line just where the line has more characters than the
bound, as it has where no tab takes more than a column. -/
structure PointsOntoLine (config : Config) (file : SourceFile) (v : Violation) (line : List Char) :
    Prop where
  is : IsLine file.content.toList v.location.line line
  shown : ∃ before c after, line = before ++ c :: after ∧
    columnsOf config.tabWidth before < v.location.column ∧
    v.location.column ≤ columnsOf config.tabWidth (before ++ [c])
  isIn_iff : v.location.IsIn file.content ↔ config.maxLineLength < line.length
  isIn_of_tabless : '\t' ∉ line ∨ config.tabWidth = 1 → v.location.IsIn file.content

/-- Every violation points onto a line of the file as it is shown. -/
theorem check_pointsOntoLine {config : Config} {file : SourceFile} {W : Source.Name → Prop}
    {tree : Source.Tree W} {v : Violation} (found : v ∈ (rule.check config file tree).violations) :
    ∃ line, PointsOntoLine config file v line := by
  obtain ⟨number, line, is, long, rfl⟩ := mem_violations_iff.mp found
  have columns := Nat.lt_of_lt_of_le long (Text.width_le config.tabWidth line)
  have isIn : Location.IsIn ⟨file.path, number, config.maxLineLength + 1⟩ file.content ↔
      config.maxLineLength < line.length := by
    rw [LongLine.isIn_iff is]
    exact and_iff_right (Nat.succ_pos _)
  refine ⟨line, is, ?_, isIn, fun tabless => isIn.mpr ?_⟩
  · obtain ⟨before, c, after, split, above, below⟩ := Text.exists_reaching columns
    exact ⟨before, c, after, split, Nat.lt_succ_of_le above, below⟩
  · rcases tabless with tabless | one
    · rwa [Text.columnsOf_tabless _ tabless] at columns
    · rwa [one, Text.columnsOf_one] at columns

/-- A bound of so many columns, with tabs of four. -/
def boundedBy (maxLineLength : String) : Config where
  longLine := some { maxLineLength := some maxLineLength, tabWidth := some "4" }

/-- The first line has eight characters, and its brace is the first one past the bound. -/
theorem check_pointsOntoBrace :
    violation ⟨"/p/a.rs"⟩ 1 8 7 ∈ (rule.check (boundedBy "7") calling emptyTree).violations ∧
      ∃ line, PointsOntoLine (boundedBy "7") calling (violation ⟨"/p/a.rs"⟩ 1 8 7) line := by
  have found : violation ⟨"/p/a.rs"⟩ 1 8 7 ∈
      (rule.check (boundedBy "7") calling emptyTree).violations := by decide +kernel
  exact ⟨found, check_pointsOntoLine found⟩

/-- The second line shows twelve columns for its six characters, so the eleventh, where it is
reported, is not that of a character by number. -/
theorem check_pointsPastLine :
    (rule.check (boundedBy "10") calling emptyTree).violations = [violation ⟨"/p/a.rs"⟩ 2 12 10] ∧
      IsLine calling.content.toList 2 "\t\tg();".toList ∧
      ¬ (violation ⟨"/p/a.rs"⟩ 2 12 10).location.IsIn calling.content := by
  have found : (rule.check (boundedBy "10") calling emptyTree).violations =
      [violation ⟨"/p/a.rs"⟩ 2 12 10] := by decide +kernel
  have is : IsLine calling.content.toList 2 "\t\tg();".toList :=
    Text.getElem?_lines_iff.mp (by decide +kernel)
  refine ⟨found, is, fun inside => ?_⟩
  have within := ((isIn_iff is).mp inside).2
  exact absurd within (by decide +kernel)

end LongLine

end SourceLint
