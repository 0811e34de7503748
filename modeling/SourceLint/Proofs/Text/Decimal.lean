import Mathlib.Data.List.Basic
import SourceLint.Proofs.Text.Runs
import SourceLint.Text.Decimal

/-! # Which texts are numbers

A count is spelled by decimal digits, with a plus sign ahead of them if one likes and white
space around it all. What is read is the number so spelled, as long as a machine word holds it,
and so a number that is written out is read back.
-/

namespace SourceLint.Text

/-! ## Machine words -/

/-- One can be added in machine words where one of them holds the result. -/
theorem toNat_ofNat_succ {n : Nat} (fits : n + 1 < UInt64.size) :
    (UInt64.ofNat n + 1).toNat = n + 1 := by
  rw [UInt64.toNat_add, UInt64.toNat_ofNat_of_lt' (Nat.lt_of_succ_lt fits)]
  exact Nat.mod_eq_of_lt fits

/-! ## Trimming -/

theorem exists_trimChars (cs : List Char) : ∃ before after,
    (∀ c ∈ before, isBlank c) ∧ (∀ c ∈ after, isBlank c) ∧ cs = before ++ trimChars cs ++ after := by
  refine ⟨cs.takeWhile isBlank, ((cs.dropWhile isBlank).reverse.takeWhile isBlank).reverse,
    fun c member => List.mem_takeWhile_imp member,
    fun c member => List.mem_takeWhile_imp (List.mem_reverse.mp member), ?_⟩
  rw [trimChars, List.append_assoc, ← List.reverse_append, List.takeWhile_append_dropWhile,
    List.reverse_reverse, List.takeWhile_append_dropWhile]

/-- White space is trimmed off what has none in it. -/
theorem trimChars_append {before middle after : List Char} (first : ∀ c ∈ before, isBlank c)
    (last : ∀ c ∈ after, isBlank c) (nonempty : middle ≠ [])
    (inked : ∀ c ∈ middle, isBlank c = false) : trimChars (before ++ middle ++ after) = middle := by
  have begins : ∀ c ∈ (middle ++ after).head?, isBlank c = false := by
    rw [List.head?_append_of_ne_nil _ nonempty]
    intro c head
    exact inked c (List.mem_of_mem_head? head)
  have ends : ∀ c ∈ middle.reverse.head?, isBlank c = false := by
    intro c head
    exact inked c (List.mem_reverse.mp (List.mem_of_mem_head? head))
  rw [trimChars, List.append_assoc, dropWhile_append_run first begins, List.reverse_append,
    dropWhile_append_run (by simpa using last) ends, List.reverse_reverse]

/-- What has no white space in it can be found with white space around it just where it is what
trimming leaves. -/
theorem exists_padded_iff {p : List Char → Prop} {cs : List Char}
    (inked : ∀ middle, p middle → middle ≠ [] ∧ ∀ c ∈ middle, isBlank c = false) :
    (∃ before middle after, (∀ c ∈ before, isBlank c) ∧ (∀ c ∈ after, isBlank c) ∧
      cs = before ++ middle ++ after ∧ p middle) ↔ p (trimChars cs) := by
  constructor
  · rintro ⟨before, middle, after, first, last, rfl, is⟩
    obtain ⟨nonempty, visible⟩ := inked middle is
    rwa [trimChars_append first last nonempty visible]
  · intro is
    obtain ⟨before, after, first, last, split⟩ := exists_trimChars cs
    exact ⟨before, _, after, first, last, split, is⟩

/-! ## Digits -/

theorem digit?_eq (c : Char) :
    digit? c = if c.isDigit then some (c.toNat - '0'.toNat) else none := by
  have same : ('0' ≤ c ∧ c ≤ '9') ↔ c.isDigit = true := by
    rw [Char.isDigit, Bool.and_eq_true, decide_eq_true_eq, decide_eq_true_eq]
    rfl
  simp only [digit?, same]

theorem digitsFrom?_eq (n : Nat) (cs : List Char) :
    digitsFrom? n cs = if cs.all Char.isDigit then some (Nat.ofDigitChars 10 cs n) else none := by
  induction cs generalizing n with
  | nil => rfl
  | cons c cs ih =>
      rw [digitsFrom?, digit?_eq, List.all_cons]
      cases c.isDigit with
      | false => rfl
      | true =>
          rw [if_pos rfl, Option.bind_some, ih, Bool.true_and, Nat.ofDigitChars_cons]

theorem digits?_eq_some_iff {cs : List Char} {n : Nat} : digits? cs = some n ↔
    cs ≠ [] ∧ (∀ c ∈ cs, c.isDigit) ∧ n = Nat.ofDigitChars 10 cs 0 := by
  cases cs with
  | nil => simp [digits?]
  | cons c cs =>
      rw [digits?, digitsFrom?_eq, Option.ite_none_right_eq_some, Option.some.injEq,
        List.all_eq_true, eq_comm (a := n)]
      simp

theorem not_blank_of_isDigit {c : Char} (digit : c.isDigit) : isBlank c = false := by
  have range : 48 ≤ c.toNat ∧ c.toNat ≤ 57 := by
    rw [Char.isDigit, Bool.and_eq_true, decide_eq_true_eq, decide_eq_true_eq] at digit
    exact digit
  simp only [isBlank, Bool.or_eq_false_iff, Bool.and_eq_false_iff, decide_eq_false_iff_not]
  omega

/-! ## Counts -/

/-- The characters are the decimal digits of a number, perhaps after a plus sign. -/
def Numeral (cs : List Char) (n : Nat) : Prop :=
  ∃ sign digits, (sign = [] ∨ sign = ['+']) ∧ digits ≠ [] ∧ (∀ c ∈ digits, c.isDigit) ∧
    cs = sign ++ digits ∧ n = Nat.ofDigitChars 10 digits 0

/-- The text is the numeral of a number, with nothing but white space around it. -/
def Spells (s : String) (n : Nat) : Prop :=
  ∃ before numeral after, (∀ c ∈ before, isBlank c) ∧ (∀ c ∈ after, isBlank c) ∧
    s.toList = before ++ numeral ++ after ∧ Numeral numeral n

/-- The text spells a positive number that a machine word holds. -/
def SpellsPositive (s : String) : Prop :=
  ∃ n, Spells s n ∧ 0 < n ∧ n ≤ maxWord

/-- A text that does not begin with a plus sign has to be digits throughout. -/
theorem numeral_iff_of_unsigned {cs : List Char} (unsigned : ∀ rest, cs ≠ '+' :: rest) {n : Nat} :
    Numeral cs n ↔ digits? cs = some n := by
  rw [digits?_eq_some_iff]
  constructor
  · rintro ⟨sign, digits, rfl | rfl, some, all, rfl, value⟩
    · exact ⟨some, all, value⟩
    · exact (unsigned digits rfl).elim
  · rintro ⟨some, all, value⟩
    exact ⟨[], cs, .inl rfl, some, all, rfl, value⟩

theorem numeral_plus_iff {rest : List Char} {n : Nat} :
    Numeral ('+' :: rest) n ↔ digits? rest = some n := by
  rw [digits?_eq_some_iff]
  constructor
  · rintro ⟨sign, digits, rfl | rfl, some, all, split, value⟩
    · rw [List.nil_append] at split
      exact absurd (all '+' (split ▸ List.mem_cons_self)) (by decide)
    · cases split
      exact ⟨some, all, value⟩
  · rintro ⟨some, all, value⟩
    exact ⟨['+'], rest, .inr rfl, some, all, rfl, value⟩

theorem natural?_eq_some_iff {cs : List Char} {n : Nat} :
    natural? cs = some n ↔ Numeral cs n ∧ n ≤ maxWord := by
  unfold natural?
  rw [Option.filter_eq_some_iff, decide_eq_true_eq, and_congr_left_iff]
  intro _
  split
  · exact numeral_plus_iff.symm
  · rename_i unsigned
    exact (numeral_iff_of_unsigned unsigned).symm

theorem Numeral.inked {cs : List Char} {n : Nat} (numeral : Numeral cs n) :
    cs ≠ [] ∧ ∀ c ∈ cs, isBlank c = false := by
  obtain ⟨sign, digits, signs, some, all, rfl, _⟩ := numeral
  refine ⟨List.append_ne_nil_of_right_ne_nil _ some, ?_⟩
  intro c member
  rcases List.mem_append.mp member with member | member
  · rcases signs with rfl | rfl
    · cases member
    · obtain rfl := List.mem_singleton.mp member
      rfl
  · exact not_blank_of_isDigit (all c member)

theorem spells_iff {s : String} {n : Nat} : Spells s n ↔ Numeral (trimChars s.toList) n :=
  exists_padded_iff fun _ numeral => numeral.inked

/-- The counts that are read are those that are spelled. -/
theorem parsePositive_eq_some_iff {s : String} {n : Nat} :
    parsePositive s = some n ↔ Spells s n ∧ 0 < n ∧ n ≤ maxWord := by
  rw [parsePositive, Option.filter_eq_some_iff, natural?_eq_some_iff, spells_iff,
    decide_eq_true_eq, and_assoc, and_comm (a := n ≤ maxWord)]

theorem isSome_parsePositive_iff {s : String} : (parsePositive s).isSome ↔ SpellsPositive s := by
  simp only [Option.isSome_iff_exists, parsePositive_eq_some_iff, SpellsPositive]

instance (s : String) : Decidable (SpellsPositive s) :=
  decidable_of_iff _ isSome_parsePositive_iff

example : SpellsPositive " +007\t" := by decide

/-! ## Integers -/

/-- The characters are the decimal digits of an integer, perhaps after a sign. -/
inductive SignedNumeral : List Char → Int → Prop where
  | natural {cs : List Char} {n : Nat} (numeral : Numeral cs n) : SignedNumeral cs n
  | minus {digits : List Char} (some : digits ≠ []) (all : ∀ c ∈ digits, c.isDigit) :
    SignedNumeral ('-' :: digits) (-(Nat.ofDigitChars 10 digits 0 : Nat))

/-- The text is the numeral of an integer, with nothing but white space around it. -/
def SpellsInteger (s : String) (n : Int) : Prop :=
  ∃ before numeral after, (∀ c ∈ before, isBlank c) ∧ (∀ c ∈ after, isBlank c) ∧
    s.toList = before ++ numeral ++ after ∧ SignedNumeral numeral n

variable {cs : List Char} {n : Int}

theorem SignedNumeral.inked (numeral : SignedNumeral cs n) :
    cs ≠ [] ∧ ∀ c ∈ cs, isBlank c = false := by
  cases numeral with
  | natural numeral => exact numeral.inked
  | minus _ all =>
      refine ⟨List.cons_ne_nil _ _, ?_⟩
      intro c member
      rcases List.mem_cons.mp member with rfl | member
      · rfl
      · exact not_blank_of_isDigit (all c member)

/-- Without a minus sign an integer is a natural number. -/
theorem signedNumeral_iff_of_unsigned (unsigned : ∀ digits, cs ≠ '-' :: digits) :
    SignedNumeral cs n ↔ ∃ m : Nat, Numeral cs m ∧ n = m := by
  constructor
  · intro numeral
    cases numeral with
    | natural numeral => exact ⟨_, numeral, rfl⟩
    | minus => exact (unsigned _ rfl).elim
  · rintro ⟨m, numeral, rfl⟩
    exact .natural numeral

theorem signedNumeral_minus_iff {digits : List Char} :
    SignedNumeral ('-' :: digits) n ↔ ∃ m : Nat, digits? digits = some m ∧ n = -m := by
  constructor
  · intro numeral
    cases numeral with
    | natural numeral =>
        obtain ⟨_, all, _⟩ :=
          digits?_eq_some_iff.mp ((numeral_iff_of_unsigned (by simp)).mp numeral)
        exact absurd (all '-' List.mem_cons_self) (by decide)
    | minus some all => exact ⟨_, digits?_eq_some_iff.mpr ⟨some, all, rfl⟩, rfl⟩
  · rintro ⟨m, read, rfl⟩
    obtain ⟨some, all, rfl⟩ := digits?_eq_some_iff.mp read
    exact .minus some all

theorem integer?_eq_some_iff :
    integer? cs = some n ↔ SignedNumeral cs n ∧ -(halfWord : Int) ≤ n ∧ n < halfWord := by
  have counts (o : Option Nat) : (o.filter (· < halfWord)).map Int.ofNat = some n ↔
      (∃ m : Nat, o = some m ∧ n = m) ∧ -(halfWord : Int) ≤ n ∧ n < halfWord := by
    simp only [Option.map_eq_some_iff, Option.filter_eq_some_iff, decide_eq_true_eq,
      Int.ofNat_eq_natCast]
    constructor
    · rintro ⟨m, ⟨read, small⟩, rfl⟩
      exact ⟨⟨m, read, rfl⟩, by omega, by omega⟩
    · rintro ⟨⟨m, read, rfl⟩, _, high⟩
      exact ⟨m, ⟨read, by omega⟩, rfl⟩
  unfold integer?
  split
  · have positive : 0 < halfWord := by decide
    rw [signedNumeral_minus_iff]
    simp only [Option.map_eq_some_iff, bind, Option.bind_eq_some_iff, Option.filter_eq_some_iff,
      decide_eq_true_eq]
    constructor
    · rintro ⟨_, ⟨m, ⟨read, small⟩, ⟨⟩⟩, rfl⟩
      exact ⟨⟨m, read, rfl⟩, by omega, by omega⟩
    · rintro ⟨⟨m, read, rfl⟩, low, _⟩
      exact ⟨m, ⟨m, ⟨read, by omega⟩, rfl⟩, rfl⟩
  · rw [counts, signedNumeral_iff_of_unsigned (by simp)]
    simp only [numeral_plus_iff]
  · rename_i minus plus
    rw [counts, signedNumeral_iff_of_unsigned minus]
    simp only [numeral_iff_of_unsigned plus]

theorem spellsInteger_iff {s : String} :
    SpellsInteger s n ↔ SignedNumeral (trimChars s.toList) n :=
  exists_padded_iff fun _ numeral => numeral.inked

/-- The integers that are read are those that are spelled. -/
theorem parseInteger_eq_some_iff {s : String} :
    parseInteger s = some n ↔ SpellsInteger s n ∧ -(halfWord : Int) ≤ n ∧ n < halfWord := by
  rw [parseInteger, integer?_eq_some_iff, spellsInteger_iff]

/-! ## Numbers as they are written -/

theorem digits?_toDigits (n : Nat) : digits? (Nat.toDigits 10 n) = some n :=
  digits?_eq_some_iff.mpr ⟨Nat.toDigits_ne_nil,
    fun _ member => Nat.isDigit_of_mem_toDigits (by decide) (by decide) member,
    (Nat.ofDigitChars_toDigits (by decide) (by decide)).symm⟩

theorem toList_natToString (n : Nat) : (toString n).toList = Nat.toDigits 10 n :=
  String.toList_ofList

theorem numeral_toString (n : Nat) : Numeral (toString n).toList n := by
  obtain ⟨some, all, value⟩ := digits?_eq_some_iff.mp (digits?_toDigits n)
  rw [toList_natToString]
  exact ⟨[], _, .inl rfl, some, all, rfl, value⟩

theorem toList_toString (n : Int) :
    (toString n).toList = (if n < 0 then ['-'] else []) ++ Nat.toDigits 10 n.natAbs := by
  cases n with
  | ofNat n => exact toList_natToString n
  | negSucc n =>
      change ("-" ++ String.ofList (Nat.toDigits 10 (n + 1))).toList = _
      rw [String.toList_append, String.toList_ofList, String.toList_ofList,
        if_pos (Int.negSucc_lt_zero n), Int.natAbs_negSucc]

theorem signedNumeral_toString (n : Int) : SignedNumeral (toString n).toList n := by
  rw [toList_toString]
  split_ifs with negative
  · rw [List.singleton_append, signedNumeral_minus_iff]
    exact ⟨n.natAbs, digits?_toDigits _, by omega⟩
  · have natural : (n.natAbs : Int) = n := by omega
    have numeral := numeral_toString n.natAbs
    rw [toList_natToString] at numeral
    exact natural ▸ .natural numeral

/-- A number that is written out is spelled by that, whatever white space there is around it. -/
theorem spellsInteger_toString {before after : String} (first : isBlankText before)
    (last : isBlankText after) (n : Int) : SpellsInteger (before ++ toString n ++ after) n :=
  ⟨before.toList, (toString n).toList, after.toList, List.all_eq_true.mp first,
    List.all_eq_true.mp last, by simp, signedNumeral_toString n⟩

theorem spells_toString {before after : String} (first : isBlankText before)
    (last : isBlankText after) (n : Nat) : Spells (before ++ toString n ++ after) n :=
  ⟨before.toList, (toString n).toList, after.toList, List.all_eq_true.mp first,
    List.all_eq_true.mp last, by simp, numeral_toString n⟩

/-- A number that a signed word holds is read back as it was written. -/
theorem parseInteger_toString {n : Int} (low : -(halfWord : Int) ≤ n) (high : n < halfWord) :
    parseInteger (toString n) = some n := by
  have spelled : SpellsInteger ("" ++ toString n ++ "") n := spellsInteger_toString rfl rfl n
  rw [String.empty_append, String.append_empty] at spelled
  exact parseInteger_eq_some_iff.mpr ⟨spelled, low, high⟩

end SourceLint.Text
