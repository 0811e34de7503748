import Mathlib.Data.List.Forall2
import Mathlib.Data.List.DropRight
import SourceLint.Json.Reader
import SourceLint.Proofs.Text.Decimal
import SourceLint.Proofs.Text.Runs

/-! # Values are read as they are written

A value is written with any white space between its parts, and whatever is so written is read
as that value. Both renderings, the compact one and the indented one, are ways of writing it.
-/

namespace SourceLint.Json

/-! ## White space -/

/-- Nothing but white space. -/
def Spaces (cs : List Char) : Prop :=
  ∀ c ∈ cs, isSpace c = true

theorem spaces_nil : Spaces [] :=
  List.forall_mem_nil _

theorem skipSpace_append {gap : List Char} (spaces : Spaces gap) (cs : List Char) :
    skipSpace (gap ++ cs) = skipSpace cs :=
  List.dropWhile_append_of_pos spaces

theorem skipSpace_cons {c : Char} (visible : isSpace c = false) (cs : List Char) :
    skipSpace (c :: cs) = c :: cs :=
  List.dropWhile_cons_of_neg (by simp [visible])

theorem skipSpace_gap {gap : List Char} (spaces : Spaces gap) {c : Char}
    (visible : isSpace c = false) (rest : List Char) :
    skipSpace (gap ++ c :: rest) = c :: rest := by
  rw [skipSpace_append spaces, skipSpace_cons visible]

theorem skipSpace_skipSpace (cs : List Char) : skipSpace (skipSpace cs) = skipSpace cs :=
  List.dropWhile_idempotent isSpace cs

/-! ## String literals -/

theorem hexValue?_hexDigit {n : Nat} (fits : n < 16) : hexValue? (hexDigit n) = some n := by
  have each : ∀ m : Fin 16, hexValue? (hexDigit m) = some m.val := by decide
  exact each ⟨n, fits⟩

theorem codeUnit?_hexDigit {n : Nat} (fits : n < 0x20) :
    codeUnit? '0' '0' (hexDigit (n / 16)) (hexDigit (n % 16)) = some n := by
  have zero : hexValue? '0' = some 0 := rfl
  simp only [codeUnit?, zero, hexValue?_hexDigit (show n / 16 < 16 by omega),
    hexValue?_hexDigit (show n % 16 < 16 by omega), Option.bind_eq_bind, Option.bind_some,
    Option.pure_def, Option.some.injEq]
  omega

theorem codeUnits?_simpleEscape {c e : Char} (names : simpleEscape? c = some e) (rest : List Char) :
    codeUnits? ('\\' :: c :: rest) = (codeUnits? rest).map fun (us, r) => (e.toNat :: us, r) := by
  have other : c ≠ 'u' := by
    rintro rfl
    rw [show simpleEscape? 'u' = none by decide] at names
    cases names
  rw [codeUnits?, names]
  · rfl
  · exact fun _ _ _ _ _ same _ => other same

theorem codeUnits?_plain {c : Char} (quote : c ≠ '"') (slash : c ≠ '\\')
    (printable : 0x20 ≤ c.toNat) (rest : List Char) :
    codeUnits? (c :: rest) = (codeUnits? rest).map fun (us, r) => (c.toNat :: us, r) := by
  have plain : ¬ (c = '\\' ∨ c.toNat < 0x20) := by
    rw [not_or]
    exact ⟨slash, by omega⟩
  rw [codeUnits?, if_neg plain]
  · exact fun same => quote same
  · exact fun _ _ _ _ _ same _ => slash same
  · exact fun _ _ same _ => slash same

/-- A character as it stands in a literal is read as its code point. -/
theorem codeUnits?_escape (c : Char) (rest : List Char) :
    codeUnits? (escape c ++ rest) = (codeUnits? rest).map fun (us, r) => (c.toNat :: us, r) := by
  unfold escape
  split_ifs with quote slash newline return_ tab backspace feed control
  · subst quote
    exact codeUnits?_simpleEscape rfl rest
  · subst slash
    exact codeUnits?_simpleEscape rfl rest
  · subst newline
    exact codeUnits?_simpleEscape rfl rest
  · subst return_
    exact codeUnits?_simpleEscape rfl rest
  · subst tab
    exact codeUnits?_simpleEscape rfl rest
  · subst backspace
    exact codeUnits?_simpleEscape rfl rest
  · subst feed
    exact codeUnits?_simpleEscape rfl rest
  · rw [List.cons_append, List.cons_append, List.cons_append, List.cons_append, List.cons_append,
      List.cons_append, codeUnits?, codeUnit?_hexDigit control, Option.bind_some]
    rfl
  · exact codeUnits?_plain quote slash (by omega) rest

theorem codeUnits?_flatMap (cs rest : List Char) :
    codeUnits? (cs.flatMap escape ++ '"' :: rest) = some (cs.map Char.toNat, rest) := by
  induction cs with
  | nil => rfl
  | cons c cs ih =>
      rw [List.flatMap_cons, List.append_assoc, codeUnits?_escape, ih]
      rfl

/-- A character is no half of a surrogate pair. -/
theorem toNat_scalar (c : Char) : c.toNat < 0xD800 ∨ 0xE000 ≤ c.toNat := by
  have valid := c.valid
  simp only [UInt32.isValidChar, Nat.isValidChar] at valid
  unfold Char.toNat
  omega

theorem textOf?_cons {n : Nat} (scalar : n < 0xD800 ∨ 0xE000 ≤ n) (us : List Nat) :
    textOf? (n :: us) = (textOf? us).map (Char.ofNat n :: ·) := by
  have low : ¬ (0xD800 ≤ n ∧ n < 0xE000) := by omega
  cases us with
  | nil => simp [textOf?, low]
  | cons low us =>
    rw [textOf?, if_neg (by omega), if_neg (by omega)]

theorem textOf?_toNat (cs : List Char) : textOf? (cs.map Char.toNat) = some cs := by
  induction cs with
  | nil => rfl
  | cons c cs ih =>
      rw [List.map_cons, textOf?_cons (toNat_scalar c), ih, Char.ofNat_toNat]
      rfl

theorem toList_quote (s : String) :
    (quote s).toList = '"' :: (s.toList.flatMap escape ++ ['"']) := by
  simp only [quote, String.toList_append, String.toList_ofList, String.reduceToList]
  rfl

theorem toList_quote_append (s : String) (rest : List Char) :
    (quote s).toList ++ rest = '"' :: (s.toList.flatMap escape ++ '"' :: rest) := by
  rw [toList_quote, List.cons_append, List.append_assoc, List.singleton_append]

/-- A text is read back from its literal. -/
theorem literal?_quote (s : String) (rest : List Char) :
    literal? (s.toList.flatMap escape ++ '"' :: rest) = some (some s, rest) := by
  rw [literal?, codeUnits?_flatMap, Option.map_some]
  simp only [textOf?_toNat, Option.map_some, String.ofList_toList]

/-! ## Numbers -/

/-- What follows a number does not continue it. -/
def EndsNumber (rest : List Char) : Prop :=
  ∀ c ∈ rest.head?, isDigit c = false ∧ c ≠ '.' ∧ c ≠ 'e' ∧ c ≠ 'E'

theorem isDigit_of_mem_toDigits {n : Nat} {c : Char} (member : c ∈ Nat.toDigits 10 n) :
    isDigit c = true :=
  Nat.isDigit_of_mem_toDigits (b := 10) (by decide) (by decide) member

/-- No number but zero is written with a zero in front. -/
theorem head?_toDigits {n : Nat} (nonzero : n ≠ 0) : ∀ c ∈ (Nat.toDigits 10 n).head?, c ≠ '0' := by
  induction n using Nat.strongRecOn with
  | ind n ih =>
      by_cases small : n < 10
      · rw [Nat.toDigits_of_lt_base small]
        have each : ∀ m : Fin 10, m.val ≠ 0 → m.val.digitChar ≠ '0' := by decide
        intro c first
        cases first
        exact each ⟨n, small⟩ nonzero
      · rw [Nat.toDigits_of_base_le (by decide) (by omega),
          List.head?_append_of_ne_nil _ Nat.toDigits_ne_nil]
        exact ih (n / 10) (by omega) (by omega)

theorem wholePart?_toDigits (n : Nat) {rest : List Char}
    (stops : ∀ c ∈ rest.head?, isDigit c = false) :
    wholePart? (Nat.toDigits 10 n ++ rest) = some (Nat.toDigits 10 n, rest) := by
  by_cases zero : n = 0
  · subst zero
    rfl
  · have all : ∀ c ∈ Nat.toDigits 10 n, isDigit c = true := fun _ => isDigit_of_mem_toDigits
    have nonempty : Nat.toDigits 10 n ≠ [] := Nat.toDigits_ne_nil
    rw [wholePart?]
    · rw [Text.takeWhile_append_run all stops, Text.dropWhile_append_run all stops]
      simp [nonempty]
    · intro rest' split
      have first : (Nat.toDigits 10 n ++ rest).head? = (Nat.toDigits 10 n).head? :=
        List.head?_append_of_ne_nil _ nonempty
      refine head?_toDigits zero '0' ?_ rfl
      rw [← first, split]
      rfl

theorem fraction?_of_endsNumber {rest : List Char} (ends : EndsNumber rest) :
    fraction? rest = some ([], rest) := by
  rw [fraction?]
  intro rest' split
  subst split
  exact (ends '.' rfl).2.1 rfl

theorem exponent?_of_endsNumber {rest : List Char} (ends : EndsNumber rest) :
    exponent? rest = some ([], rest) := by
  cases rest with
  | nil => rfl
  | cons c rest =>
      obtain ⟨_, _, lower, upper⟩ := ends c rfl
      simp only [exponent?, lower, upper, or_self, if_false]

theorem digitsValue_toDigits (n : Nat) : digitsValue (Nat.toDigits 10 n) = n :=
  Nat.ofDigitChars_ten_toDigits

theorem cons_ne_toDigits {n : Nat} {c : Char} (visible : isDigit c = false) (r rest : List Char) :
    Nat.toDigits 10 n ++ rest ≠ c :: r := by
  intro split
  have first : c ∈ (Nat.toDigits 10 n ++ rest).head? := by
    rw [split]
    rfl
  rw [List.head?_append_of_ne_nil _ Nat.toDigits_ne_nil] at first
  rw [isDigit_of_mem_toDigits (List.mem_of_mem_head? first)] at visible
  cases visible

theorem number?_toDigits (n : Nat) {rest : List Char} (ends : EndsNumber rest) :
    number? (Nat.toDigits 10 n ++ rest) = some (int n, rest) := by
  have whole := wholePart?_toDigits n fun c first => (ends c first).1
  unfold number?
  split
  rename_i negative body signed
  split at signed
  · rename_i split
    exact absurd split (cons_ne_toDigits rfl _ _)
  · cases signed
    simp [whole, fraction?_of_endsNumber ends, exponent?_of_endsNumber ends, digitsValue_toDigits]

theorem number?_minus_toDigits {n : Nat} (nonzero : n ≠ 0) {rest : List Char}
    (ends : EndsNumber rest) :
    number? ('-' :: (Nat.toDigits 10 n ++ rest)) = some (int (-(n : Int)), rest) := by
  have whole := wholePart?_toDigits n fun c first => (ends c first).1
  simp [number?, whole, fraction?_of_endsNumber ends, exponent?_of_endsNumber ends,
    digitsValue_toDigits, nonzero]

theorem number?_toString (n : Int) {rest : List Char} (ends : EndsNumber rest) :
    number? ((toString n).toList ++ rest) = some (int n, rest) := by
  rw [Text.toList_toString]
  split_ifs with negative
  · rw [List.append_assoc, List.singleton_append, number?_minus_toDigits (by omega) ends]
    congr 3
    omega
  · rw [List.nil_append, number?_toDigits _ ends]
    congr 3
    omega

/-! ## Values -/

/-- The name of a field, with its colon and white space before either. -/
def Label (name : String) (cs : List Char) : Prop :=
  ∃ before after, Spaces before ∧ Spaces after ∧
    cs = before ++ (quote name).toList ++ after ++ [':']

mutual

/-- The value is written so, with any white space around it and between its parts. -/
inductive Written : Json → List Char → Prop where
  | null : Written .null ['n', 'u', 'l', 'l']
  | yes : Written (.bool true) ['t', 'r', 'u', 'e']
  | no : Written (.bool false) ['f', 'a', 'l', 's', 'e']
  | int (n : Int) : Written (.int n) (toString n).toList
  | string (s : String) : Written (.string s) (quote s).toList
  | noItems {gap : List Char} (spaces : Spaces gap) : Written (.array []) ('[' :: (gap ++ [']']))
  | array {items : List Json} {body : List Char} (written : WrittenItems items body) :
      Written (.array items) ('[' :: (body ++ [']']))
  | noFields {gap : List Char} (spaces : Spaces gap) :
      Written (.object []) ('\x7b' :: (gap ++ ['\x7d']))
  | object {fields : List (String × Json)} {body : List Char} (written : WrittenFields fields body) :
      Written (.object fields) ('\x7b' :: (body ++ ['\x7d']))
  | padded {j : Json} {before cs after : List Char} (leading : Spaces before)
      (written : Written j cs) (trailing : Spaces after) : Written j (before ++ cs ++ after)

/-- The items are written so, with a comma between each two. -/
inductive WrittenItems : List Json → List Char → Prop where
  | last {item : Json} {cs : List Char} (written : Written item cs) : WrittenItems [item] cs
  | cons {item : Json} {items : List Json} {cs body : List Char} (written : Written item cs)
      (others : WrittenItems items body) : WrittenItems (item :: items) (cs ++ ',' :: body)

/-- The fields are written so, with a comma between each two. -/
inductive WrittenFields : List (String × Json) → List Char → Prop where
  | last {name : String} {value : Json} {label cs : List Char} (named : Label name label)
      (written : Written value cs) : WrittenFields [(name, value)] (label ++ cs)
  | cons {name : String} {value : Json} {fields : List (String × Json)} {label cs body : List Char}
      (named : Label name label) (written : Written value cs)
      (others : WrittenFields fields body) :
      WrittenFields ((name, value) :: fields) (label ++ cs ++ ',' :: body)

end

/-! ### Steps of the reader -/

theorem value?_skipSpace (steps : Nat) (cs : List Char) :
    value? steps (skipSpace cs) = value? steps cs := by
  cases steps with
  | zero => rfl
  | succ steps => rw [value?, value?, skipSpace_skipSpace]

theorem items?_skipSpace (steps : Nat) (cs : List Char) :
    items? steps (skipSpace cs) = items? steps cs := by
  cases steps with
  | zero => rfl
  | succ steps => rw [items?, items?, value?_skipSpace]

theorem fields?_skipSpace (steps : Nat) (cs : List Char) :
    fields? steps (skipSpace cs) = fields? steps cs := by
  cases steps with
  | zero => rfl
  | succ steps => rw [fields?, fields?, skipSpace_skipSpace]

theorem value?_append {gap : List Char} (spaces : Spaces gap) (steps : Nat) (cs : List Char) :
    value? steps (gap ++ cs) = value? steps cs := by
  rw [← value?_skipSpace, skipSpace_append spaces, value?_skipSpace]

/-- No item begins with a bracket that closes. -/
theorem items?_bracket (steps : Nat) (cs : List Char) : items? steps (']' :: cs) = none := by
  match steps with
  | 0 => rfl
  | 1 => rfl
  | steps + 2 => rfl

/-- No field begins with a brace that closes. -/
theorem fields?_brace (steps : Nat) (cs : List Char) : fields? steps ('\x7d' :: cs) = none := by
  cases steps <;> rfl

theorem value?_noItems {gap : List Char} (spaces : Spaces gap) (steps : Nat) (rest : List Char) :
    value? (steps + 1) ('[' :: (gap ++ ']' :: rest)) = some (.array [], rest) := by
  rw [value?, skipSpace_cons rfl]
  simp only [skipSpace_gap spaces (show isSpace ']' = false from rfl)]

theorem value?_noFields {gap : List Char} (spaces : Spaces gap) (steps : Nat) (rest : List Char) :
    value? (steps + 1) ('\x7b' :: (gap ++ '\x7d' :: rest)) = some (.object [], rest) := by
  rw [value?, skipSpace_cons rfl]
  simp only [skipSpace_gap spaces (show isSpace '\x7d' = false from rfl)]

theorem value?_items {steps : Nat} {cs rest : List Char} {items : List Json}
    (read : items? steps cs = some (items, rest)) :
    value? (steps + 1) ('[' :: cs) = some (.array items, rest) := by
  rw [← items?_skipSpace] at read
  rw [value?, skipSpace_cons rfl]
  simp only
  split
  · rename_i closed
    rw [closed, items?_bracket] at read
    cases read
  · rw [read]
    rfl

/-- A field whose name denotes a text. -/
def named (field : String × Json) : Option String × Json :=
  (some field.1, field.2)

theorem ofFields_named (fields : List (String × Json)) :
    ofFields (fields.map named) = .object fields := by
  have names : ((fields.map named).mapM fun field => field.1.map (·, field.2)) = some fields := by
    induction fields with
    | nil => rfl
    | cons field fields ih =>
        rw [List.map_cons, List.mapM_cons, ih]
        rfl
  rw [ofFields, names]

theorem value?_fields {steps : Nat} {cs rest : List Char} {fields : List (String × Json)}
    (read : fields? steps cs = some (fields.map named, rest)) :
    value? (steps + 1) ('\x7b' :: cs) = some (.object fields, rest) := by
  rw [← fields?_skipSpace] at read
  rw [value?, skipSpace_cons rfl]
  simp only
  split
  · rename_i closed
    rw [closed, fields?_brace] at read
    cases read
  · rw [read, Option.map_some, ofFields_named]

theorem value?_string (steps : Nat) (s : String) (rest : List Char) :
    value? (steps + 1) ((quote s).toList ++ rest) = some (.string s, rest) := by
  rw [toList_quote_append, value?, skipSpace_cons rfl]
  simp only
  rw [literal?_quote]
  rfl

theorem isSpace_iff {c : Char} : isSpace c = true ↔ c = ' ' ∨ c = '\n' ∨ c = '\t' ∨ c = '\r' := by
  simp only [isSpace, Bool.or_eq_true, decide_eq_true_eq, or_assoc]

theorem not_isSpace_of_isDigit {c : Char} (digit : isDigit c = true) : isSpace c = false := by
  rw [← Bool.not_eq_true, isSpace_iff]
  rintro (rfl | rfl | rfl | rfl) <;> exact absurd digit (by decide)

/-- White space ends a number. -/
theorem endsNumber_append {gap rest : List Char} (spaces : Spaces gap) (ends : EndsNumber rest) :
    EndsNumber (gap ++ rest) := by
  cases gap with
  | nil => exact ends
  | cons c gap =>
      intro d first
      cases first
      rcases isSpace_iff.mp (spaces c List.mem_cons_self) with rfl | rfl | rfl | rfl <;> decide

theorem endsNumber_cons {c : Char} (ends : isDigit c = false ∧ c ≠ '.' ∧ c ≠ 'e' ∧ c ≠ 'E')
    (rest : List Char) : EndsNumber (c :: rest) := by
  intro d first
  cases first
  exact ends

theorem value?_number {c : Char} (digit : isDigit c = true) (steps : Nat) (cs : List Char) :
    value? (steps + 1) (c :: cs) = number? (c :: cs) := by
  rw [value?, skipSpace_cons (not_isSpace_of_isDigit digit)]
  split
  case h_7 => rfl
  all_goals
    rename_i same
    cases same
    exact absurd digit (by decide)

theorem value?_toString (steps : Nat) (n : Int) {rest : List Char} (ends : EndsNumber rest) :
    value? (steps + 1) ((toString n).toList ++ rest) = some (.int n, rest) := by
  rw [← number?_toString n ends, Text.toList_toString]
  split_ifs with negative
  · rfl
  · cases text : Nat.toDigits 10 n.natAbs with
    | nil => exact absurd text Nat.toDigits_ne_nil
    | cons c cs => exact value?_number (isDigit_of_mem_toDigits (text ▸ List.mem_cons_self)) steps _

/-- The reader finds the name in a label, and what follows its colon. -/
theorem Label.read {name : String} {label : List Char} (named : Label name label)
    (cs : List Char) : ∃ afterQuote afterName, skipSpace (label ++ cs) = '"' :: afterQuote ∧
      literal? afterQuote = some (some name, afterName) ∧ skipSpace afterName = ':' :: cs := by
  obtain ⟨before, after, leading, trailing, rfl⟩ := named
  refine ⟨_, after ++ ':' :: cs, ?_, literal?_quote name _, ?_⟩
  · simp only [List.append_assoc, List.singleton_append]
    rw [skipSpace_append leading, toList_quote_append, skipSpace_cons rfl]
  · rw [skipSpace_append trailing, skipSpace_cons rfl]

theorem fields?_last {name : String} {label : List Char} (named : Label name label) {steps : Nat}
    {cs rest r : List Char} {value : Json} (read : value? steps cs = some (value, rest))
    (closed : skipSpace rest = '\x7d' :: r) :
    fields? (steps + 1) (label ++ cs) = some ([(some name, value)], r) := by
  obtain ⟨afterQuote, afterName, quoted, spelled, colon⟩ := named.read cs
  rw [fields?, quoted]
  simp only [spelled, colon, read, closed, Option.bind_eq_bind, Option.bind_some, Option.pure_def]

theorem fields?_cons {name : String} {label : List Char} (named : Label name label) {steps : Nat}
    {cs rest r r' : List Char} {value : Json} {fields : List (Option String × Json)}
    (read : value? steps cs = some (value, rest)) (comma : skipSpace rest = ',' :: r)
    (others : fields? steps r = some (fields, r')) :
    fields? (steps + 1) (label ++ cs) = some ((some name, value) :: fields, r') := by
  obtain ⟨afterQuote, afterName, quoted, spelled, colon⟩ := named.read cs
  rw [fields?, quoted]
  simp only [spelled, colon, read, comma, others, Option.bind_eq_bind, Option.bind_some,
    Option.pure_def]

theorem items?_last {steps : Nat} {cs rest r : List Char} {item : Json}
    (read : value? steps cs = some (item, rest)) (closed : skipSpace rest = ']' :: r) :
    items? (steps + 1) cs = some ([item], r) := by
  simp only [items?, read, closed, Option.bind_eq_bind, Option.bind_some, Option.pure_def]

theorem items?_cons {steps : Nat} {cs rest r r' : List Char} {item : Json} {items : List Json}
    (read : value? steps cs = some (item, rest)) (comma : skipSpace rest = ',' :: r)
    (others : items? steps r = some (items, r')) :
    items? (steps + 1) cs = some (item :: items, r') := by
  simp only [items?, read, comma, others, Option.bind_eq_bind, Option.bind_some, Option.pure_def]

/-! ### Reading what is written -/

mutual

/-- A value is read from what is written, up to white space that follows it. -/
theorem value?_of_written {j : Json} {cs : List Char} : Written j cs →
    ∀ (steps : Nat) (rest : List Char), 2 * cs.length ≤ steps + 1 → EndsNumber rest →
      ∃ gap, Spaces gap ∧ value? (steps + 1) (cs ++ rest) = some (j, gap ++ rest)
  | .null => fun _ _ _ _ => ⟨[], spaces_nil, rfl⟩
  | .yes => fun _ _ _ _ => ⟨[], spaces_nil, rfl⟩
  | .no => fun _ _ _ _ => ⟨[], spaces_nil, rfl⟩
  | .int n => fun steps _ _ ends => ⟨[], spaces_nil, value?_toString steps n ends⟩
  | .string s => fun steps rest _ _ => ⟨[], spaces_nil, value?_string steps s rest⟩
  | .noItems spaces => by
      intro steps rest _ _
      refine ⟨[], spaces_nil, ?_⟩
      rw [List.cons_append, List.append_assoc, List.singleton_append]
      exact value?_noItems spaces steps rest
  | .array written => by
      intro steps rest enough _
      simp only [List.length_cons, List.length_append, List.length_nil] at enough
      obtain ⟨more, rfl⟩ : ∃ more, steps = more + 2 := ⟨steps - 2, by omega⟩
      have items := items?_of_written written more rest (by omega)
      refine ⟨[], spaces_nil, ?_⟩
      rw [List.cons_append, List.append_assoc, List.singleton_append]
      exact value?_items items
  | .noFields spaces => by
      intro steps rest _ _
      refine ⟨[], spaces_nil, ?_⟩
      rw [List.cons_append, List.append_assoc, List.singleton_append]
      exact value?_noFields spaces steps rest
  | .object written => by
      intro steps rest enough _
      simp only [List.length_cons, List.length_append, List.length_nil] at enough
      obtain ⟨more, rfl⟩ : ∃ more, steps = more + 2 := ⟨steps - 2, by omega⟩
      have fields := fields?_of_written written more rest (by omega)
      refine ⟨[], spaces_nil, ?_⟩
      rw [List.cons_append, List.append_assoc, List.singleton_append]
      exact value?_fields fields
  | .padded leading written trailing => by
      intro steps rest enough ends
      simp only [List.length_append] at enough
      obtain ⟨gap, spaces, read⟩ := value?_of_written written steps _ (by omega)
        (endsNumber_append trailing ends)
      refine ⟨_, List.forall_mem_append.mpr ⟨spaces, trailing⟩, ?_⟩
      rw [List.append_assoc, List.append_assoc, value?_append leading, read, List.append_assoc]

theorem items?_of_written {items : List Json} {cs : List Char} : WrittenItems items cs →
    ∀ (steps : Nat) (rest : List Char), 2 * cs.length ≤ steps + 1 →
      items? (steps + 2) (cs ++ ']' :: rest) = some (items, rest)
  | .last written => by
      intro steps rest enough
      obtain ⟨gap, spaces, read⟩ := value?_of_written written steps (']' :: rest) (by omega)
        (endsNumber_cons (by decide) rest)
      exact items?_last read (skipSpace_gap spaces rfl rest)
  | .cons written others => by
      intro steps rest enough
      simp only [List.length_cons, List.length_append] at enough
      obtain ⟨more, rfl⟩ : ∃ more, steps = more + 1 := ⟨steps - 1, by omega⟩
      obtain ⟨gap, spaces, read⟩ := value?_of_written written (more + 1) (',' :: _) (by omega)
        (endsNumber_cons (by decide) _)
      rw [List.append_assoc, List.cons_append]
      exact items?_cons read (skipSpace_gap spaces rfl _) (items?_of_written others more rest (by omega))

theorem fields?_of_written {fields : List (String × Json)} {cs : List Char} :
    WrittenFields fields cs → ∀ (steps : Nat) (rest : List Char), 2 * cs.length ≤ steps + 1 →
      fields? (steps + 2) (cs ++ '\x7d' :: rest) = some (fields.map named, rest)
  | .last named written => by
      intro steps rest enough
      simp only [List.length_append] at enough
      obtain ⟨gap, spaces, read⟩ := value?_of_written written steps ('\x7d' :: rest) (by omega)
        (endsNumber_cons (by decide) rest)
      rw [List.append_assoc]
      exact fields?_last named read (skipSpace_gap spaces rfl rest)
  | .cons named written others => by
      intro steps rest enough
      simp only [List.length_cons, List.length_append] at enough
      obtain ⟨more, rfl⟩ : ∃ more, steps = more + 1 := ⟨steps - 1, by omega⟩
      obtain ⟨gap, spaces, read⟩ := value?_of_written written (more + 1) (',' :: _) (by omega)
        (endsNumber_cons (by decide) _)
      rw [List.append_assoc, List.append_assoc, List.cons_append]
      exact fields?_cons named read (skipSpace_gap spaces rfl _)
        (fields?_of_written others more rest (by omega))

end

/-- A text that is a way of writing a value spells that value. -/
theorem parse?_of_written {j : Json} {s : String} (written : Written j s.toList) :
    parse? s = some j := by
  have ends : EndsNumber [] := fun _ first => nomatch first
  obtain ⟨gap, spaces, read⟩ := value?_of_written written (2 * s.toList.length + 1) [] (by omega) ends
  rw [List.append_nil, List.append_nil] at read
  have blank : skipSpace gap = [] := List.dropWhile_eq_nil_iff.mpr spaces
  simp only [parse?, read, blank, List.isEmpty_nil, if_true]

/-! ## Renderings -/

/-- Numbers are whole and literals denote texts, everywhere in the value. -/
inductive Exact : Json → Prop where
  | null : Exact .null
  | bool (b : Bool) : Exact (.bool b)
  | int (n : Int) : Exact (.int n)
  | string (s : String) : Exact (.string s)
  | array {items : List Json} (each : ∀ item ∈ items, Exact item) : Exact (.array items)
  | object {fields : List (String × Json)} (each : ∀ field ∈ fields, Exact field.2) :
      Exact (.object fields)

theorem renderItems_eq (items : List Json) : renderItems items = items.map render := by
  induction items with
  | nil => rw [renderItems, List.map_nil]
  | cons item items ih => rw [renderItems, ih, List.map_cons]

theorem indentItems_eq (depth : Nat) (items : List Json) :
    indentItems depth items = items.map (renderIndented depth) := by
  induction items with
  | nil => rw [indentItems, List.map_nil]
  | cons item items ih => rw [indentItems, ih, List.map_cons]

theorem renderFields_eq (fields : List (String × Json)) :
    renderFields fields = fields.map fun f => quote f.1 ++ ":" ++ render f.2 := by
  induction fields with
  | nil => rw [renderFields, List.map_nil]
  | cons field fields ih => rw [renderFields, ih, List.map_cons]

theorem indentFields_eq (depth : Nat) (fields : List (String × Json)) :
    indentFields depth fields =
      fields.map fun f => quote f.1 ++ ": " ++ renderIndented depth f.2 := by
  induction fields with
  | nil => rw [indentFields, List.map_nil]
  | cons field fields ih => rw [indentFields, ih, List.map_cons]

theorem spaces_lineBreak (depth : Nat) : Spaces (lineBreak depth).toList := by
  simp only [lineBreak, String.toList_append, String.toList_ofList, Spaces]
  rw [List.forall_mem_append]
  refine ⟨List.forall_mem_singleton.mpr rfl, fun c member => ?_⟩
  rw [List.eq_of_mem_replicate member]
  rfl

section

variable (gap : String) {after : List Char}

/-- Texts of items, separated by commas, are a way of writing the items. -/
theorem writtenItems_separate (leading : Spaces gap.toList) (trailing : Spaces after)
    {write : Json → String} {items : List Json} (nonempty : items ≠ [])
    (each : ∀ item ∈ items, Written item (write item).toList) :
    WrittenItems items
      (gap.toList ++ (separate ("," ++ gap) (items.map write)).toList ++ after) := by
  induction items with
  | nil => exact absurd rfl nonempty
  | cons item items ih =>
      have here : Written item (write item).toList := each item List.mem_cons_self
      cases items with
      | nil =>
          rw [List.map_singleton, separate, String.intercalate_singleton]
          exact .last (.padded leading here trailing)
      | cons next items =>
          have others := ih (List.cons_ne_nil _ _) fun i member => each i (.tail _ member)
          have written := WrittenItems.cons (.padded leading here spaces_nil) others
          simpa [separate, String.intercalate_cons_cons, String.toList_append] using written

/-- Texts of fields, separated by commas, are a way of writing the fields. -/
theorem writtenFields_separate (leading : Spaces gap.toList) (trailing : Spaces after)
    {colon : String} {pad : List Char} (points : colon.toList = ':' :: pad) (padding : Spaces pad)
    {write : Json → String} {fields : List (String × Json)} (nonempty : fields ≠ [])
    (each : ∀ field ∈ fields, Written field.2 (write field.2).toList) :
    WrittenFields fields
      (gap.toList ++ (separate ("," ++ gap)
        (fields.map fun f => quote f.1 ++ colon ++ write f.2)).toList ++ after) := by
  induction fields with
  | nil => exact absurd rfl nonempty
  | cons field fields ih =>
      obtain ⟨name, value⟩ := field
      have here : Written value (write value).toList := each (name, value) List.mem_cons_self
      have named : Label name (gap.toList ++ (quote name).toList ++ [] ++ [':']) :=
        ⟨gap.toList, [], leading, spaces_nil, rfl⟩
      cases fields with
      | nil =>
          have written := WrittenFields.last named (.padded padding here trailing)
          simpa [separate, String.intercalate_singleton, String.toList_append, points] using written
      | cons next fields =>
          have others := ih (List.cons_ne_nil _ _) fun f member => each f (.tail _ member)
          have written := WrittenFields.cons named (.padded padding here spaces_nil) others
          simpa [separate, String.intercalate_cons_cons, String.toList_append, points] using written

end

/-- The compact rendering is a way of writing a value. -/
theorem written_render {j : Json} (exact : Exact j) : Written j j.render.toList := by
  induction exact with
  | null => exact .null
  | bool b =>
      cases b
      · exact .no
      · exact .yes
  | int n => exact .int n
  | string s => exact .string s
  | @array items each ih =>
      by_cases empty : items = []
      · subst empty
        exact .noItems spaces_nil
      · have written := writtenItems_separate "" spaces_nil spaces_nil empty ih
        rw [render, renderItems_eq]
        simpa [String.toList_append] using Written.array written
  | @object fields each ih =>
      by_cases empty : fields = []
      · subst empty
        exact .noFields spaces_nil
      · have points : ":".toList = ':' :: [] := rfl
        have written :=
          writtenFields_separate "" spaces_nil spaces_nil points spaces_nil empty ih
        rw [render, renderFields_eq]
        simpa [String.toList_append] using Written.object written

/-- The indented rendering is a way of writing a value. -/
theorem written_renderIndented {j : Json} (exact : Exact j) (depth : Nat) :
    Written j (j.renderIndented depth).toList := by
  induction exact generalizing depth with
  | null | bool | int | string =>
      rw [renderIndented]
      exact written_render (by constructor)
  | @array items each ih =>
      cases items with
      | nil =>
          rw [renderIndented]
          exact .noItems spaces_nil
      | cons item items =>
          have written := writtenItems_separate (lineBreak (depth + 1)) (spaces_lineBreak _)
            (spaces_lineBreak depth) (List.cons_ne_nil item items)
            fun i member => ih i member (depth + 1)
          rw [renderIndented, indentItems_eq]
          simpa [String.toList_append] using Written.array written
  | @object fields each ih =>
      cases fields with
      | nil =>
          rw [renderIndented]
          exact .noFields spaces_nil
      | cons field fields =>
          have points : ": ".toList = ':' :: [' '] := rfl
          have padding : Spaces [' '] := List.forall_mem_singleton.mpr rfl
          have written := writtenFields_separate (lineBreak (depth + 1)) (spaces_lineBreak _)
            (spaces_lineBreak depth) points padding (List.cons_ne_nil field fields)
            fun f member => ih f member (depth + 1)
          rw [renderIndented, indentFields_eq]
          simpa [String.toList_append] using Written.object written

theorem parse?_render {j : Json} (exact : Exact j) : parse? j.render = some j :=
  parse?_of_written (written_render exact)

theorem parse?_renderPretty {j : Json} (exact : Exact j) : parse? j.renderPretty = some j :=
  parse?_of_written (written_renderIndented exact 0)

end SourceLint.Json
