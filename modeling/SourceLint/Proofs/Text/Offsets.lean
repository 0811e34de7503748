import Mathlib.Data.List.DropRight
import Mathlib.Data.String.Basic
import SourceLint.Proofs.Position.Behind
import SourceLint.Proofs.Text.Lines
import SourceLint.Text.Decimal

/-! # Offsets of lines and columns

The offset of a line and a column is the start of the line and then one byte for each column, up to
the end of the line; a line that is not there is at the end of the text. So offsets are in the order
of lines and columns, and none is past the end. The offset is the place that the two stand for where
the characters in front of it on its line take one byte each, and falls short of it by the further
bytes that they take.
-/

namespace SourceLint.Text

open Position (behind)

variable {text before body after line cs : List Char} {c : Char} {n column : Nat}

/-! ## Bytes -/

theorem byteLength_eq (cs : List Char) : byteLength cs = String.utf8Len cs := by
  have fold (n : Nat) : cs.foldl (fun n c => n + c.utf8Size) n = n + String.utf8Len cs := by
    induction cs generalizing n with
    | nil => simp
    | cons c cs ih => rw [List.foldl_cons, ih, String.utf8Len_cons]; omega
  rw [byteLength, fold, Nat.zero_add]

theorem byteLength_toList (s : String) : byteLength s.toList = s.utf8ByteSize := by
  rw [byteLength_eq, ← String.utf8ByteSize_ofList, String.ofList_toList]

@[simp] theorem byteLength_nil : byteLength [] = 0 := rfl

@[simp] theorem byteLength_cons (c : Char) (cs : List Char) :
    byteLength (c :: cs) = c.utf8Size + byteLength cs := by
  simp [byteLength_eq, Nat.add_comm]

@[simp] theorem byteLength_append (first second : List Char) :
    byteLength (first ++ second) = byteLength first + byteLength second := by
  simp [byteLength_eq]

theorem length_le_byteLength (cs : List Char) : cs.length ≤ byteLength cs := by
  induction cs with
  | nil => exact Nat.zero_le _
  | cons c cs ih =>
      have positive := c.utf8Size_pos
      rw [byteLength_cons, List.length_cons]
      omega

/-- Each of the characters takes one byte. -/
def IsAscii (cs : List Char) : Prop :=
  ∀ c ∈ cs, c.toNat < 128

theorem utf8Size_eq_one_iff : c.utf8Size = 1 ↔ c.toNat < 128 := by
  rw [Char.utf8Size_eq_one_iff, UInt32.le_iff_toNat_le]
  exact Nat.lt_succ_iff.symm

theorem byteLength_eq_length_iff : byteLength cs = cs.length ↔ IsAscii cs := by
  induction cs with
  | nil => simp [byteLength, IsAscii]
  | cons c cs ih =>
      have positive := c.utf8Size_pos
      have least := length_le_byteLength cs
      rw [byteLength_cons, List.length_cons, IsAscii, List.forall_mem_cons, ← utf8Size_eq_one_iff]
      change _ ↔ _ ∧ IsAscii cs
      rw [← ih]
      omega

/-! ## Offsets line by line -/

theorem dropLineFeed_of_feedless (feedless : '\n' ∉ line) : dropLineFeed line = line := by
  have ends : line.getLast? ≠ some '\n' := fun last => feedless (List.mem_of_getLast? last)
  rw [dropLineFeed, if_neg ends]

theorem offsetOf_nil (n column : Nat) : offsetOf [] n column = 0 := rfl

/-- On the first line an offset is the column, cut at the line's end. -/
theorem offsetOf_firstLine (feedless : '\n' ∉ body)
    (ends : after = [] ∨ ∃ more, after = '\n' :: more) (column : Nat) :
    offsetOf (body ++ after) 0 column = min column (byteLength body) := by
  rcases ends with rfl | ⟨more, rfl⟩
  · rw [List.append_nil]
    by_cases empty : body = []
    · simp [empty, offsetOf_nil]
    · simp [offsetOf, pieces_of_feedless feedless empty, offsetIn,
        dropLineFeed_of_feedless feedless]
  · simp [offsetOf, pieces_closed feedless, offsetIn, dropLineFeed]

/-- The line feed of a line counts for the lines behind it. -/
theorem offsetOf_nextLine (feedless : '\n' ∉ body) (more : List Char) (n column : Nat) :
    offsetOf (body ++ '\n' :: more) (n + 1) column =
      byteLength body + 1 + offsetOf more n column := by
  have feed : '\n'.utf8Size = 1 := rfl
  simp [offsetOf, pieces_closed feedless, offsetIn, feed]

theorem offsetOf_noLine (feedless : '\n' ∉ line) (n column : Nat) :
    offsetOf line (n + 1) column = byteLength line := by
  by_cases empty : line = []
  · simp [empty, offsetOf_nil]
  · simp [offsetOf, pieces_of_feedless feedless empty, offsetIn]

/-- Behind whole lines the offsets are counted from their end. -/
theorem offsetOf_behind (fresh : EndsLine before) (after : List Char) (n column : Nat) :
    offsetOf (before ++ after) (before.count '\n' + n) column =
      byteLength before + offsetOf after n column := by
  induction before using byLines with
  | empty => simp
  | last line feedless nonempty => exact absurd (fresh.eq_nil feedless) nonempty
  | closed line more feedless ih =>
      have feed : '\n'.utf8Size = 1 := rfl
      rw [count_behind feedless, List.append_assoc, List.cons_append, Nat.add_right_comm,
        offsetOf_nextLine feedless, ih fresh.of_behind, byteLength_append, byteLength_cons, feed]
      omega

/-- On a line of the text the offset is that of the line and the column, cut at the line's end. -/
theorem offsetOf_of_hasLine (has : HasLine text n before body after) (column : Nat) :
    offsetOf text n column = byteLength before + min column (byteLength body) := by
  obtain ⟨rfl, rfl, fresh, feedless, ends⟩ := has
  rw [← offsetOf_firstLine feedless (ends.symm.imp_left And.left), ← offsetOf_behind fresh,
    Nat.add_zero]

/-- A line that is not there is at the end of the text. -/
theorem offsetOf_of_not_hasLine (absent : ∀ before body after, ¬ HasLine text n before body after)
    (column : Nat) : offsetOf text n column = byteLength text := by
  induction text using byLines generalizing n with
  | empty => rfl
  | last line feedless nonempty =>
      cases n with
      | zero =>
          have first := (hasLine_of_feedless_iff feedless nonempty).mpr ⟨rfl, rfl, rfl, rfl⟩
          exact absurd first (absent _ _ _)
      | succ n => exact offsetOf_noLine feedless n column
  | closed line more feedless ih =>
      cases n with
      | zero =>
          have first : HasLine (line ++ '\n' :: more) 0 [] line ('\n' :: more) :=
            ⟨rfl, rfl, endsLine_nil, feedless, .inl ⟨more, rfl⟩⟩
          exact absurd first (absent _ _ _)
      | succ n =>
          have later : ∀ before body after, ¬ HasLine more n before body after := by
            intro before body after has
            exact absent _ _ _ ((hasLine_closed_iff feedless).mpr (.inr ⟨n, before, rfl, rfl, has⟩))
          have feed : '\n'.utf8Size = 1 := rfl
          rw [offsetOf_nextLine feedless, ih later, byteLength_append, byteLength_cons, feed]
          omega

theorem HasLine.byteLength_le (has : HasLine text n before body after) :
    byteLength before + byteLength body ≤ byteLength text := by
  rw [has.split, byteLength_append, byteLength_append]
  omega

theorem offsetOf_le (text : List Char) (n column : Nat) :
    offsetOf text n column ≤ byteLength text := by
  by_cases there : ∃ before body after, HasLine text n before body after
  · obtain ⟨before, body, after, has⟩ := there
    have inside := has.byteLength_le
    rw [offsetOf_of_hasLine has]
    omega
  · push Not at there
    exact (offsetOf_of_not_hasLine there column).le

/-! ## Offsets in order -/

theorem offsetOf_mono_column {column' : Nat} (le : column ≤ column') (text : List Char) (n : Nat) :
    offsetOf text n column ≤ offsetOf text n column' := by
  by_cases there : ∃ before body after, HasLine text n before body after
  · obtain ⟨before, body, after, has⟩ := there
    rw [offsetOf_of_hasLine has, offsetOf_of_hasLine has]
    omega
  · push Not at there
    rw [offsetOf_of_not_hasLine there, offsetOf_of_not_hasLine there]

/-- The start of a line comes behind the end of each line in front of it. -/
theorem offsetOf_mono_line {m : Nat} (lt : n < m) (text : List Char) (column column' : Nat) :
    offsetOf text n column ≤ offsetOf text m column' := by
  induction text using byLines generalizing n m with
  | empty => exact le_rfl
  | last line feedless nonempty =>
      obtain ⟨m, rfl⟩ := Nat.exists_eq_succ_of_ne_zero (Nat.ne_zero_of_lt lt)
      rw [Nat.succ_eq_add_one, offsetOf_noLine feedless]
      exact offsetOf_le line n column
  | closed line more feedless ih =>
      obtain ⟨m, rfl⟩ := Nat.exists_eq_succ_of_ne_zero (Nat.ne_zero_of_lt lt)
      rw [Nat.succ_eq_add_one, offsetOf_nextLine feedless]
      cases n with
      | zero =>
          rw [offsetOf_firstLine feedless (.inr ⟨more, rfl⟩)]
          omega
      | succ n =>
          have later := ih (Nat.lt_of_succ_lt_succ lt)
          rw [offsetOf_nextLine feedless]
          omega

theorem offsetOf_mono {m column' : Nat} (ordered : n < m ∨ n = m ∧ column ≤ column')
    (text : List Char) : offsetOf text n column ≤ offsetOf text m column' := by
  rcases ordered with lt | ⟨rfl, le⟩
  · exact offsetOf_mono_line lt text column column'
  · exact offsetOf_mono_column le text n

/-! ## Sums in machine words -/

/-- The sum of two numbers, if a machine word holds it. -/
def addWord? (a b : Nat) : Option Nat :=
  if a + b ≤ maxWord then some (a + b) else none

/-- The offset of a line and a column among pieces that begin at the offset `start`, added up from
one piece to the next in machine words. -/
def wordOffset? (start : Nat) : List (List Char) → Nat → Nat → Option Nat
  | [], _, _ => some start
  | p :: _, 0, column => addWord? start (min column (byteLength (dropLineFeed p)))
  | p :: ps, n + 1, column =>
    (addWord? start (byteLength p)).bind fun next => wordOffset? next ps n column

theorem addWord?_eq {a b : Nat} (fits : a + b ≤ maxWord) : addWord? a b = some (a + b) :=
  if_pos fits

theorem byteLength_dropLineFeed_le (piece : List Char) :
    byteLength (dropLineFeed piece) ≤ byteLength piece := by
  rw [dropLineFeed]
  split
  · rcases List.eq_nil_or_concat' piece with rfl | ⟨first, last, rfl⟩
    · exact le_rfl
    · rw [List.dropLast_concat, byteLength_append]
      exact Nat.le_add_right _ _
  · exact le_rfl

/-- No sum is too large as long as the start and the pieces that are left together are not. -/
theorem wordOffset?_eq {start : Nat} {ps : List (List Char)}
    (fits : start + byteLength ps.flatten ≤ maxWord) (n column : Nat) :
    wordOffset? start ps n column = some (start + offsetIn ps n column) := by
  induction ps generalizing start n with
  | nil => cases n <;> rfl
  | cons p ps ih =>
      rw [List.flatten_cons, byteLength_append] at fits
      cases n with
      | zero =>
          have short := byteLength_dropLineFeed_le p
          exact addWord?_eq (by omega)
      | succ n =>
          have next : start + byteLength p ≤ maxWord := by omega
          rw [wordOffset?, addWord?_eq next, Option.bind_some, ih (by omega), offsetIn,
            Nat.add_assoc]

theorem flatten_pieces (text : List Char) : (pieces text).flatten = text := by
  induction text using byLines with
  | empty => rfl
  | last line feedless nonempty => simp [pieces_of_feedless feedless nonempty]
  | closed line more feedless ih => simp [pieces_closed feedless, ih]

/-- Where a machine word holds the length of the text, no sum on the way to an offset overflows. -/
theorem wordOffset?_pieces (fits : byteLength text ≤ maxWord) (n column : Nat) :
    wordOffset? 0 (pieces text) n column = some (offsetOf text n column) := by
  rw [wordOffset?_eq (by rwa [flatten_pieces, Nat.zero_add]), Nat.zero_add, offsetOf]

/-! ## Offsets of places -/

/-- What of a text stands on its last line. -/
def lastLine (before : List Char) : List Char :=
  before.rtakeWhile (· ≠ '\n')

theorem behind_eq (before : List Char) :
    behind before = ⟨before.count '\n' + 1, (lastLine before).length + 1⟩ := by
  rw [behind, lastLine, List.rtakeWhile, List.length_reverse]

theorem feedless_lastLine (before : List Char) : '\n' ∉ lastLine before := by
  intro feed
  simpa using List.mem_rtakeWhile_imp feed

/-- In front of the last line there are whole lines. -/
theorem exists_lastLine (before : List Char) :
    ∃ lines, before = lines ++ lastLine before ∧ EndsLine lines := by
  refine ⟨before.rdropWhile (· ≠ '\n'), List.rdropWhile_append_rtakeWhile.symm, ?_⟩
  intro c last
  obtain ⟨nonempty, rfl⟩ := List.mem_getLast?_eq_getLast last
  simpa using List.rdropWhile_last_not _ before nonempty

theorem exists_lineEnd (cs : List Char) : ∃ line after, cs = line ++ after ∧ '\n' ∉ line ∧
    (after = [] ∨ ∃ more, after = '\n' :: more) := by
  by_cases feed : '\n' ∈ cs
  · obtain ⟨line, more, split, feedless⟩ := List.eq_append_cons_of_mem feed
    exact ⟨line, _, split, feedless, .inr ⟨more, rfl⟩⟩
  · exact ⟨cs, [], (List.append_nil cs).symm, feed, .inl rfl⟩

/-- The offset falls short of the place by the bytes that characters on its line take beyond the
first. -/
theorem offsetOf_lastLine (before after : List Char) :
    offsetOf (before ++ after) (before.count '\n') (lastLine before).length +
      byteLength (lastLine before) = byteLength before + (lastLine before).length := by
  obtain ⟨lines, split, fresh⟩ := exists_lastLine before
  obtain ⟨tail, rest, rfl, feedless, ends⟩ := exists_lineEnd after
  have plain := feedless_lastLine before
  have least := length_le_byteLength (lastLine before)
  generalize lastLine before = line at *
  subst split
  have counts : (lines ++ line).count '\n' = lines.count '\n' + 0 := by
    rw [List.count_append, List.count_eq_zero.mpr plain]
  have whole : '\n' ∉ line ++ tail := by simp [plain, feedless]
  rw [counts, List.append_assoc, offsetOf_behind fresh, ← List.append_assoc,
    offsetOf_firstLine whole ends, byteLength_append, byteLength_append]
  omega

/-- The offset is that of the place just where all characters in front of it on its line are plain
ones. -/
theorem offsetOf_eq_byteLength_iff :
    offsetOf (before ++ after) (before.count '\n') (lastLine before).length = byteLength before ↔
      IsAscii (lastLine before) := by
  have short := offsetOf_lastLine before after
  rw [← byteLength_eq_length_iff]
  omega

end SourceLint.Text
