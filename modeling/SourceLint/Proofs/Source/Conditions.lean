import SourceLint.Proofs.Source.Words
import SourceLint.Proofs.Text.Search
import SourceLint.Source.Grammar.File
import SourceLint.Source.TestCode

/-! # Conditions on tests

A condition demands that the code is compiled for tests if it is `test`, or if it holds only where
all of several conditions do and one of these demands it. Whether an attribute counts as such a
condition is told by its spelling alone. The search finds `test` where it is first in a list, or
last in one that no comma ends, whatever the list stands in, and in strings. So it is told rightly
only as far as `test` stands there in the lists of `all` alone.
-/

namespace SourceLint.Source

open Token (compact compactAll)

/-! ## Conditions -/

/-- What makes one condition of several. -/
inductive Connective where
  | not
  | all
  | any
  deriving DecidableEq

def Connective.name : Connective → String
  | not => "not"
  | all => "all"
  | any => "any"

/-- The literal is a string, raw or not, that no suffix follows. -/
def IsQuoted (text : String) : Prop :=
  ∃ mark body hashes, text.toList = mark ++ '"' :: (body ++ '"' :: List.replicate hashes '#')

variable {W : Name → Prop}

/-- A condition with the words that spell it. -/
inductive Condition (W : Name → Prop) where
  | flag (name : Word W)
  | setting (key : Word W) (value : String) (quoted : IsQuoted value)
  /-- Made of a list of conditions, which may end in a comma. -/
  | compound (connective : Connective) (word : Word W) (named : word.text = connective.name)
      (parts : List (Condition W)) (comma : Bool)

namespace Condition

mutual

/-- The tokens of a condition. -/
def tokens : Condition W → List (Token W)
  | flag name => [.word name]
  | setting key value _ => [.word key, .mark '=' false, .literal value]
  | compound _ word _ parts comma => [.word word, .group .parenthesis (tokensOfAll comma parts)]

/-- The tokens of a list of conditions. -/
def tokensOfAll (comma : Bool) : List (Condition W) → List (Token W)
  | [] => []
  | c :: rest =>
    tokens c ++ (if rest.isEmpty && !comma then [] else [.mark ',' false]) ++
      tokensOfAll comma rest

end

/-- The condition is `test` itself. -/
def IsTest (c : Condition W) : Prop :=
  ∃ name, c = flag name ∧ name.text = "test"

/-- Only code that is compiled for tests meets the condition, since `test` is one of the conditions
that must all hold. -/
inductive RequiresTest : Condition W → Prop where
  | test {c : Condition W} (test : c.IsTest) : RequiresTest c
  | all {word : Word W} {named : word.text = Connective.all.name} {parts : List (Condition W)}
      {comma : Bool} {part : Condition W} (member : part ∈ parts) (requires : RequiresTest part) :
      RequiresTest (compound .all word named parts comma)

end Condition

/-! ## The search -/

/-- One of the spellings that are searched for is somewhere in the characters. -/
def FindsTest (cs : List Char) : Prop :=
  ∃ part ∈ testConditions, part.toList <:+: cs

/-- A character that takes a spelling to begin or to end. -/
def isBreak (c : Char) : Bool :=
  c = '(' || c = ')' || c = ','

section Search

variable {before after word : List Char} {c l r : Char}

theorem spelling_of_mem {part : String} (listed : part ∈ testConditions) :
    ∃ l r, part.toList = l :: ("test".toList ++ [r]) ∧ isBreak l = true ∧ isBreak r = true := by
  simp only [testConditions, List.mem_cons, List.not_mem_nil, or_false] at listed
  rcases listed with rfl | rfl | rfl
  · exact ⟨'(', ')', rfl, rfl, rfl⟩
  · exact ⟨'(', ',', rfl, rfl, rfl⟩
  · exact ⟨',', ')', rfl, rfl, rfl⟩

theorem two_le_countP {part : String} (listed : part ∈ testConditions) :
    2 ≤ part.toList.countP isBreak := by
  obtain ⟨l, r, same, opens, closes⟩ := spelling_of_mem listed
  rw [same]
  simp [opens, closes]

theorem findsTest_cut (breaks : isBreak c = true) :
    FindsTest (before ++ c :: after) ↔ FindsTest (before ++ [c]) ∨ FindsTest (c :: after) := by
  have cut {part : String} (listed : part ∈ testConditions) :
      part.toList <:+: before ++ c :: after ↔
        part.toList <:+: before ++ [c] ∨ part.toList <:+: c :: after := by
    apply Text.infix_cut_iff
    obtain ⟨l, r, same, _⟩ := spelling_of_mem listed
    rw [same, List.tail_cons, List.dropLast_concat]
    intro member
    have plain : "test".toList.any isBreak = false := by decide
    exact List.any_eq_false.mp plain c member breaks
  simp only [FindsTest, ← exists_or, ← and_or_left]
  exact exists_congr fun part => and_congr_right cut

theorem findsTest_drop (foreign : c ∉ "(test),".toList) :
    FindsTest (before ++ c :: after) ↔ FindsTest before ∨ FindsTest after := by
  have drop {part : String} (listed : part ∈ testConditions) :
      part.toList <:+: before ++ c :: after ↔
        part.toList <:+: before ∨ part.toList <:+: after := by
    apply Text.infix_drop_iff
    have used : ∀ part ∈ testConditions, part.toList ⊆ "(test),".toList := by decide
    exact fun member => foreign (used part listed member)
  simp only [FindsTest, ← exists_or, ← and_or_left]
  exact exists_congr fun part => and_congr_right drop

theorem not_findsTest (few : before.countP isBreak ≤ 1) : ¬ FindsTest before := by
  rintro ⟨part, listed, found⟩
  exact Text.not_infix_of_countP_le (two_le_countP listed) few found

theorem not_findsTest_of_length (short : before.length < 6) : ¬ FindsTest before := by
  rintro ⟨part, listed, found⟩
  obtain ⟨l, r, same, _⟩ := spelling_of_mem listed
  have fits := found.length_le
  rw [same] at fits
  simp at fits
  omega

/-- Around a word without breaks nothing is found but that word. -/
theorem findsTest_around (plain : word.countP isBreak = 0) :
    FindsTest (l :: (word ++ [r])) ↔
      word = "test".toList ∧ (l = '(' ∧ (r = ')' ∨ r = ',') ∨ l = ',' ∧ r = ')') := by
  constructor
  · rintro ⟨part, listed, found⟩
    rw [Text.infix_around_iff (two_le_countP listed) plain] at found
    have pieces (first last : Char) (same : first :: ("test".toList ++ [last]) =
        l :: (word ++ [r])) : l = first ∧ word = "test".toList ∧ r = last := by
      obtain ⟨opens, rest⟩ := List.cons.inj same
      obtain ⟨inside, closes⟩ := List.append_inj' rest rfl
      exact ⟨opens.symm, inside.symm, (List.singleton_inj.mp closes).symm⟩
    simp only [testConditions, List.mem_cons, List.not_mem_nil, or_false] at listed
    rcases listed with rfl | rfl | rfl
    · obtain ⟨opens, inside, closes⟩ := pieces '(' ')' found
      exact ⟨inside, .inl ⟨opens, .inl closes⟩⟩
    · obtain ⟨opens, inside, closes⟩ := pieces '(' ',' found
      exact ⟨inside, .inl ⟨opens, .inr closes⟩⟩
    · obtain ⟨opens, inside, closes⟩ := pieces ',' ')' found
      exact ⟨inside, .inr ⟨opens, closes⟩⟩
  · rintro ⟨rfl, ⟨rfl, rfl | rfl⟩ | ⟨rfl, rfl⟩⟩
    · exact ⟨"(test)", by decide, List.infix_rfl⟩
    · exact ⟨"(test,", by decide, List.infix_rfl⟩
    · exact ⟨",test)", by decide, List.infix_rfl⟩

end Search

/-! ## What is shown -/

/-- The list shows `test` to the search: where it is first or last, or in one of the parts. -/
inductive ShowsTest : List (Condition W) → Bool → Prop where
  | first {parts : List (Condition W)} {comma : Bool} {c : Condition W}
      (first : parts.head? = some c) (test : c.IsTest) : ShowsTest parts comma
  | last {parts : List (Condition W)} {c : Condition W} (last : parts.getLast? = some c)
      (test : c.IsTest) : ShowsTest parts false
  /-- Spaces in the string do not count. -/
  | value {parts : List (Condition W)} {comma : Bool} {key : Word W} {value : String}
      {quoted : IsQuoted value} (member : .setting key value quoted ∈ parts)
      (found : FindsTest (value.toList.filter (· ≠ ' '))) : ShowsTest parts comma
  | inside {parts inner : List (Condition W)} {comma ended : Bool} {connective : Connective}
      {word : Word W} {named : word.text = connective.name}
      (member : .compound connective word named inner ended ∈ parts)
      (shows : ShowsTest inner ended) : ShowsTest parts comma

/-- The condition shows `test`, wherever it stands. -/
def Condition.ShowsInside : Condition W → Prop
  | flag _ => False
  | setting _ value _ => FindsTest (value.toList.filter (· ≠ ' '))
  | compound _ _ _ parts comma => ShowsTest parts comma

theorem showsTest_iff {parts : List (Condition W)} {comma : Bool} : ShowsTest parts comma ↔
    (∃ c, parts.head? = some c ∧ c.IsTest) ∨
      (comma = false ∧ ∃ c, parts.getLast? = some c ∧ c.IsTest) ∨
        ∃ c ∈ parts, c.ShowsInside := by
  constructor
  · intro shows
    cases shows with
    | first first test => exact .inl ⟨_, first, test⟩
    | last last test => exact .inr (.inl ⟨rfl, _, last, test⟩)
    | value member found => exact .inr (.inr ⟨_, member, found⟩)
    | inside member shows => exact .inr (.inr ⟨_, member, shows⟩)
  · rintro (⟨c, first, test⟩ | ⟨rfl, c, last, test⟩ | ⟨c, member, shows⟩)
    · exact .first first test
    · exact .last last test
    · cases c with
      | flag name => exact shows.elim
      | setting key value quoted => exact .value member shows
      | compound connective word named parts comma => exact .inside member shows

/-! ## Spelling -/

namespace Condition

theorem compactAll_append (ts us : List (Token W)) :
    compactAll (ts ++ us) = compactAll ts ++ compactAll us := by
  induction ts with
  | nil => simp [compactAll]
  | cons t ts ih => simp [compactAll, ih, String.append_assoc]

/-- The characters that spell a condition. -/
def spelled (c : Condition W) : List Char :=
  (compactAll c.tokens).toList

/-- The characters that spell a list of conditions. -/
def spelledAll (comma : Bool) (parts : List (Condition W)) : List Char :=
  (compactAll (tokensOfAll comma parts)).toList

theorem spelled_flag (name : Word W) : (flag name).spelled = name.text.toList := by
  simp [spelled, tokens, compactAll, compact]

theorem spelled_setting (key : Word W) (value : String) (quoted : IsQuoted value) :
    (setting key value quoted).spelled =
      key.text.toList ++ '=' :: value.toList.filter (· ≠ ' ') := by
  simp [spelled, tokens, compactAll, compact]

theorem spelled_compound (connective : Connective) (word : Word W)
    (named : word.text = connective.name) (parts : List (Condition W)) (comma : Bool) :
    (compound connective word named parts comma).spelled =
      word.text.toList ++ '(' :: (spelledAll comma parts ++ [')']) := by
  simp [spelled, tokens, compactAll, compact, spelledAll, Delimiter.opening, Delimiter.closing]

theorem spelledAll_singleton (comma : Bool) (c : Condition W) :
    spelledAll comma [c] = c.spelled ++ if comma then [','] else [] := by
  cases comma <;> simp [spelledAll, tokensOfAll, compactAll_append, compactAll, compact, spelled]

theorem spelledAll_cons (comma : Bool) (c d : Condition W) (rest : List (Condition W)) :
    spelledAll comma (c :: d :: rest) = c.spelled ++ ',' :: spelledAll comma (d :: rest) := by
  rw [spelledAll, tokensOfAll]
  simp [compactAll_append, compactAll, compact, spelled, spelledAll]

theorem isTest_flag {name : Word W} : (flag name).IsTest ↔ name.text = "test" := by
  simp [IsTest]

/-! ### Finding it -/

/-- In strings, spaces aside, what is found is inside of the quotes. -/
theorem findsTest_quoted {value : String} (quoted : IsQuoted value) (r : Char) :
    FindsTest (value.toList.filter (· ≠ ' ') ++ [r]) ↔
      FindsTest (value.toList.filter (· ≠ ' ')) := by
  obtain ⟨mark, body, hashes, spelled⟩ := quoted
  obtain ⟨inside, same⟩ : ∃ inside, value.toList.filter (· ≠ ' ') =
      inside ++ '"' :: List.replicate hashes '#' := by
    refine ⟨(mark ++ '"' :: body).filter (· ≠ ' '), ?_⟩
    rw [spelled]
    simp [List.filter_append]
  have foreign : '"' ∉ "(test),".toList := by decide
  have none (tail : List Char) (few : tail.countP isBreak ≤ 1) :
      ¬ FindsTest (List.replicate hashes '#' ++ tail) := by
    apply not_findsTest
    rw [List.countP_append, List.countP_replicate]
    simpa [isBreak] using few
  rw [same, List.append_assoc, List.cons_append, findsTest_drop foreign, findsTest_drop foreign]
  simp [none [r] List.countP_le_length, by simpa using none [] (Nat.zero_le 1)]

/-- Behind the parenthesis that closes a list nothing more of it is found. -/
theorem findsTest_list (comma : Bool) (parts : List (Condition W)) (r : Char) :
    FindsTest ('(' :: (spelledAll comma parts ++ ')' :: [r])) ↔
      FindsTest ('(' :: (spelledAll comma parts ++ [')'])) := by
  have behind : ¬ FindsTest [')', r] := not_findsTest_of_length (by simp)
  have cut := @findsTest_cut ('(' :: spelledAll comma parts) [r] ')' rfl
  exact cut.trans (or_iff_left behind)

/-- No word that is known has a break in it. -/
def AreUnbroken (W : Name → Prop) : Prop :=
  ∀ name, W name → name.text.toList.countP isBreak = 0

mutual

/-- Between the marks around it a condition is found to be `test`, or to show it inside. -/
theorem findsTest_part (unbroken : AreUnbroken W) {l r : Char} (opens : l = '(' ∨ l = ',')
    (closes : r = ')' ∨ r = ',') : (c : Condition W) → (FindsTest (l :: (c.spelled ++ [r])) ↔
      (c.IsTest ∧ (l = '(' ∨ r = ')')) ∨ c.ShowsInside)
  | flag name => by
      rw [spelled_flag, findsTest_around (unbroken _ name.holds), String.toList_inj, isTest_flag,
        ShowsInside, or_false]
      refine and_congr_right fun _ => ?_
      rcases opens with rfl | rfl <;> rcases closes with rfl | rfl <;> decide
  | setting key value quoted => by
      have cut : l :: ((setting key value quoted).spelled ++ [r]) =
          (l :: key.text.toList) ++ '=' :: (value.toList.filter (· ≠ ' ') ++ [r]) := by
        simp [spelled_setting]
      have few : (l :: key.text.toList).countP isBreak ≤ 1 := by
        rw [List.countP_cons, unbroken _ key.holds]
        split <;> simp
      have none := not_findsTest few
      have other : ¬ (setting key value quoted).IsTest := by simp [IsTest]
      rw [cut, findsTest_drop (by decide), findsTest_quoted quoted]
      simp [none, other, ShowsInside]
  | compound connective word named parts comma => by
      have cut : l :: ((compound connective word named parts comma).spelled ++ [r]) =
          (l :: word.text.toList) ++ '(' :: (spelledAll comma parts ++ ')' :: [r]) := by
        simp [spelled_compound]
      have name : ¬ FindsTest (l :: (word.text.toList ++ ['('])) := by
        rw [findsTest_around (unbroken _ word.holds)]
        simp
      have other : ¬ (compound connective word named parts comma).IsTest := by simp [IsTest]
      have inside := findsTest_parts unbroken (.inl rfl) comma parts
      rw [cut, findsTest_cut rfl, List.cons_append, findsTest_list, inside, ShowsInside,
        showsTest_iff]
      simp [name, other]

/-- So is a list, in which commas stand between the conditions. -/
theorem findsTest_parts (unbroken : AreUnbroken W) {l : Char} (opens : l = '(' ∨ l = ',')
    (comma : Bool) : (parts : List (Condition W)) →
    (FindsTest (l :: (spelledAll comma parts ++ [')'])) ↔
      (l = '(' ∧ ∃ c, parts.head? = some c ∧ c.IsTest) ∨
        (comma = false ∧ ∃ c, parts.getLast? = some c ∧ c.IsTest) ∨ ∃ c ∈ parts, c.ShowsInside)
  | [] => by
      have none : ¬ FindsTest (l :: (spelledAll comma ([] : List (Condition W)) ++ [')'])) :=
        not_findsTest_of_length (by simp [spelledAll, tokensOfAll, compactAll])
      simp [none]
  | [c] => by
      cases comma with
      | false =>
          have part := findsTest_part unbroken opens (.inl rfl) c
          have alone : spelledAll false [c] = c.spelled := by simp [spelledAll_singleton]
          have first : l = '(' ∧ c.IsTest ∨ c.IsTest ↔ c.IsTest := or_iff_right_of_imp And.right
          rw [alone, part]
          simp [← or_assoc, first]
      | true =>
          have part := findsTest_part unbroken opens (.inr rfl) c
          have behind : ¬ FindsTest [',', ')'] := not_findsTest_of_length (by simp)
          have cut : l :: (spelledAll true [c] ++ [')']) = (l :: c.spelled) ++ ',' :: [')'] := by
            simp [spelledAll_singleton]
          rw [cut, findsTest_cut rfl, List.cons_append, part]
          simp [behind, and_comm]
  | c :: d :: rest => by
      have part := findsTest_part unbroken opens (.inr rfl) c
      have others := findsTest_parts unbroken (.inr rfl) comma (d :: rest)
      have cut : l :: (spelledAll comma (c :: d :: rest) ++ [')']) =
          (l :: c.spelled) ++ ',' :: (spelledAll comma (d :: rest) ++ [')']) := by
        simp [spelledAll_cons]
      rw [cut, findsTest_cut rfl, List.cons_append, part, others]
      simp [and_comm, or_assoc, or_left_comm]

end

/-! ### Attributes -/

/-- The tokens of an attribute that makes what follows depend on a condition. -/
def attributeTokens (cfg : Word W) (p : Condition W) (comma : Bool) : List (Token W) :=
  [.mark '#' false, .group .bracket [.word cfg, .group .parenthesis (tokensOfAll comma [p])]]

/-- The attribute that is read from them. -/
def asAttribute (p : Condition W) (comma : Bool) : Attribute where
  absolute := false
  path := ["cfg"]
  text := "#[cfg(" ++ compactAll (tokensOfAll comma [p]) ++ ")]"

theorem outerAttributes_condition (g : Grammar W) {cfg : Word W} (named : cfg.text = "cfg")
    (p : Condition W) (comma : Bool) : g.outerAttributes (attributeTokens cfg p comma) =
      some (⟨[p.asAttribute comma], []⟩, []) := by
  have text : "#" ++ compactAll [.group .bracket
      [.word cfg, .group .parenthesis (tokensOfAll comma [p])]] = (p.asAttribute comma).text := by
    rw [← String.toList_inj]
    simp [compactAll, compact, named, asAttribute, Delimiter.opening, Delimiter.closing]
  have read : g.outerAttributes (attributeTokens cfg p comma) =
      some (⟨[⟨false, ["cfg"], "#" ++ compactAll [.group .bracket
        [.word cfg, .group .parenthesis (tokensOfAll comma [p])]]⟩], []⟩, []) := by
    obtain ⟨⟨name, position⟩, holds⟩ := cfg
    subst named
    rfl
  rw [read, text]
  rfl

theorem parseAttributes?_condition {text : String} {cfg : Word (IsWordOf text.toList)}
    (named : cfg.text = "cfg") {p : Condition (IsWordOf text.toList)} {comma : Bool}
    (spelled : trees? text.toList = some (attributeTokens cfg p comma)) :
    parseAttributes? text = some [p.asAttribute comma] := by
  rw [parseAttributes?, spelled, Option.bind_some, outerAttributes_condition _ named]

theorem isTestCode_asAttribute (p : Condition W) (comma : Bool) :
    isTestCode [p.asAttribute comma] = (p.asAttribute comma).conditionsOnTest := by
  have unmarked : (p.asAttribute comma).marksTest = false := by
    simp [Attribute.marksTest, asAttribute, testNames]
  simp [isTestCode, unmarked]

/-- The attribute counts as a condition on tests just where the search is shown `test`. -/
theorem conditionsOnTest_asAttribute (unbroken : AreUnbroken W) (p : Condition W) (comma : Bool) :
    (p.asAttribute comma).conditionsOnTest = true ↔ ShowsTest [p] comma := by
  have finds : (p.asAttribute comma).conditionsOnTest = true ↔
      FindsTest (p.asAttribute comma).text.toList := by
    have cfg : (p.asAttribute comma).isCondition = true := rfl
    rw [Attribute.conditionsOnTest, cfg, Bool.true_and, List.any_eq_true]
    simp only [Text.holds_iff, FindsTest]
  have cut : (p.asAttribute comma).text.toList =
      "#[cfg".toList ++ '(' :: (spelledAll comma [p] ++ ')' :: [']']) := by
    simp [asAttribute, spelledAll]
  have inFront : ¬ FindsTest ("#[cfg".toList ++ ['(']) := not_findsTest (by decide)
  rw [finds, cut, findsTest_cut rfl, or_iff_right inFront, findsTest_list,
    findsTest_parts unbroken (.inl rfl), showsTest_iff, and_iff_right rfl]

end Condition

/-! ## Telling rightly -/

namespace Condition

/-- What the condition comes to is told by the search: it finds nothing in strings and under other
connectives than `all`, and where `test` is in a list of that it is first or last. -/
inductive IsTold : Condition W → Prop where
  | flag {name : Word W} : IsTold (flag name)
  | setting {key : Word W} {value : String} {quoted : IsQuoted value}
      (silent : ¬ FindsTest (value.toList.filter (· ≠ ' '))) : IsTold (setting key value quoted)
  | all {word : Word W} {named : word.text = Connective.all.name} {parts : List (Condition W)}
      {comma : Bool} (told : ∀ part ∈ parts, IsTold part)
      (ends : (∃ part ∈ parts, part.IsTest) → (∃ c, parts.head? = some c ∧ c.IsTest) ∨
        comma = false ∧ ∃ c, parts.getLast? = some c ∧ c.IsTest) :
      IsTold (compound .all word named parts comma)
  | other {connective : Connective} {word : Word W} {named : word.text = connective.name}
      {parts : List (Condition W)} {comma : Bool} (other : connective ≠ .all)
      (silent : ¬ ShowsTest parts comma) : IsTold (compound connective word named parts comma)

theorem requiresTest_all_iff {word : Word W} {named : word.text = Connective.all.name}
    {parts : List (Condition W)} {comma : Bool} :
    (compound .all word named parts comma).RequiresTest ↔ ∃ part ∈ parts, part.RequiresTest := by
  constructor
  · intro requires
    cases requires with
    | test test =>
        obtain ⟨name, same, _⟩ := test
        cases same
    | all member requires => exact ⟨_, member, requires⟩
  · rintro ⟨part, member, requires⟩
    exact .all member requires

/-- Where it is told, what is found is what is demanded. -/
theorem IsTold.iff {c : Condition W} (told : c.IsTold) :
    c.IsTest ∨ c.ShowsInside ↔ c.RequiresTest := by
  induction told with
  | flag =>
      rw [or_iff_left (show ¬ ShowsInside _ from id)]
      refine ⟨.test, fun requires => ?_⟩
      cases requires with
      | test test => exact test
  | setting silent =>
      refine iff_of_false ?_ ?_
      · rintro (⟨_, same, _⟩ | shows)
        · cases same
        · exact silent shows
      · rintro ⟨⟨_, same, _⟩⟩
        cases same
  | @all word named parts comma _ ends ih =>
      have other : ¬ (compound .all word named parts comma).IsTest := by simp [IsTest]
      rw [or_iff_right other, ShowsInside, showsTest_iff, requiresTest_all_iff]
      constructor
      · rintro (⟨c, first, test⟩ | ⟨_, c, last, test⟩ | ⟨c, member, shows⟩)
        · exact ⟨c, List.mem_of_mem_head? first, .test test⟩
        · exact ⟨c, List.mem_of_getLast? last, .test test⟩
        · exact ⟨c, member, (ih c member).mp (.inr shows)⟩
      · rintro ⟨c, member, requires⟩
        rcases (ih c member).mpr requires with test | shows
        · exact (ends ⟨c, member, test⟩).imp_right .inl
        · exact .inr (.inr ⟨c, member, shows⟩)
  | other other silent =>
      refine iff_of_false ?_ ?_
      · rintro (⟨_, same, _⟩ | shows)
        · cases same
        · exact silent shows
      · intro requires
        cases requires with
        | test test =>
            obtain ⟨_, same, _⟩ := test
            cases same
        | all => exact other rfl

theorem showsTest_singleton {p : Condition W} {comma : Bool} :
    ShowsTest [p] comma ↔ p.IsTest ∨ p.ShowsInside := by
  rw [showsTest_iff]
  simp only [List.head?_cons, List.getLast?_singleton, Option.some.injEq, List.mem_singleton,
    exists_eq_left, exists_eq_left']
  tauto

theorem isBreak_eq_false {c : Char} (char : IsWordChar c) : isBreak c = false := by
  rw [Bool.eq_false_iff]
  intro breaks
  have mark : (c = '(' ∨ c = ')') ∨ c = ',' := by
    simpa only [isBreak, Bool.or_eq_true, decide_eq_true_eq] using breaks
  unfold IsWordChar at char
  rcases mark with (rfl | rfl) | rfl
  · exact absurd char (by decide +kernel)
  · exact absurd char (by decide +kernel)
  · exact absurd char (by decide +kernel)

theorem areUnbroken_isWordOf (cs : List Char) : AreUnbroken (IsWordOf cs) := by
  intro name word
  rw [List.countP_eq_zero]
  intro c member
  simp [isBreak_eq_false (word.isWordChar c member)]

/-! ## Conditions in a text -/

/-- A word of a text that has been cut into lexemes. -/
def wordOf {cs : List Char} {lexemes : List Lexeme} (cut : lexemes? cs = some lexemes)
    (text : String) (column : Nat) (member : .word ⟨text, 1, column⟩ ∈ lexemes) :
    Word (IsWordOf cs) :=
  ⟨⟨text, 1, column⟩, lexemes, cut, member⟩

/-- The lexemes of an attribute with those of a condition from the seventh column on. -/
def attributeLexemes (condition : List Lexeme) : List Lexeme :=
  [.mark '#' false, .opening .bracket, .word ⟨"cfg", 1, 3⟩, .opening .parenthesis] ++ condition ++
    [.closing .parenthesis, .closing .bracket]

theorem lexemes?_last : lexemes? "#[cfg(all(unix,test))]".toList = some (attributeLexemes
    [.word ⟨"all", 1, 7⟩, .opening .parenthesis, .word ⟨"unix", 1, 11⟩, .mark ',' false,
      .word ⟨"test", 1, 16⟩, .closing .parenthesis]) := by
  rfl

/-- `test` is the last of two conditions. -/
def testLast : Condition (IsWordOf "#[cfg(all(unix,test))]".toList) :=
  compound .all (wordOf lexemes?_last "all" 7 (by simp [attributeLexemes])) rfl
    [flag (wordOf lexemes?_last "unix" 11 (by simp [attributeLexemes])),
      flag (wordOf lexemes?_last "test" 16 (by simp [attributeLexemes]))] false

theorem trees?_testLast : trees? "#[cfg(all(unix,test))]".toList = some (attributeTokens
    (wordOf lexemes?_last "cfg" 3 (by simp [attributeLexemes])) testLast false) := by
  rfl

theorem lexemes?_between : lexemes? "#[cfg(all(unix,test,windows))]".toList =
    some (attributeLexemes [.word ⟨"all", 1, 7⟩, .opening .parenthesis, .word ⟨"unix", 1, 11⟩,
      .mark ',' false, .word ⟨"test", 1, 16⟩, .mark ',' false, .word ⟨"windows", 1, 21⟩,
      .closing .parenthesis]) := by
  rfl

/-- `test` is between other conditions. -/
def testBetween : Condition (IsWordOf "#[cfg(all(unix,test,windows))]".toList) :=
  compound .all (wordOf lexemes?_between "all" 7 (by simp [attributeLexemes])) rfl
    [flag (wordOf lexemes?_between "unix" 11 (by simp [attributeLexemes])),
      flag (wordOf lexemes?_between "test" 16 (by simp [attributeLexemes])),
      flag (wordOf lexemes?_between "windows" 21 (by simp [attributeLexemes]))] false

theorem trees?_testBetween : trees? "#[cfg(all(unix,test,windows))]".toList =
    some (attributeTokens (wordOf lexemes?_between "cfg" 3 (by simp [attributeLexemes]))
      testBetween false) := by
  rfl

theorem lexemes?_negated : lexemes? "#[cfg(not(test))]".toList = some (attributeLexemes
    [.word ⟨"not", 1, 7⟩, .opening .parenthesis, .word ⟨"test", 1, 11⟩,
      .closing .parenthesis]) := by
  rfl

/-- `test` is negated. -/
def testNegated : Condition (IsWordOf "#[cfg(not(test))]".toList) :=
  compound .not (wordOf lexemes?_negated "not" 7 (by simp [attributeLexemes])) rfl
    [flag (wordOf lexemes?_negated "test" 11 (by simp [attributeLexemes]))] false

theorem trees?_testNegated : trees? "#[cfg(not(test))]".toList = some (attributeTokens
    (wordOf lexemes?_negated "cfg" 3 (by simp [attributeLexemes])) testNegated false) := by
  rfl

/-- Where an attribute is one on a condition, it counts as one on tests just where the search is
shown `test`; and where that tells rightly, just where the condition demands it. -/
theorem conditionsOnTest_iff {text : String} {cfg : Word (IsWordOf text.toList)}
    {p : Condition (IsWordOf text.toList)} {comma : Bool} (named : cfg.text = "cfg")
    (spelled : trees? text.toList = some (attributeTokens cfg p comma)) :
    ∃ a, parseAttributes? text = some [a] ∧ isTestCode [a] = a.conditionsOnTest ∧
      (a.conditionsOnTest = true ↔ ShowsTest [p] comma) ∧
      (p.IsTold → (a.conditionsOnTest = true ↔ p.RequiresTest)) := by
  have counts := conditionsOnTest_asAttribute (areUnbroken_isWordOf text.toList) p comma
  refine ⟨p.asAttribute comma, parseAttributes?_condition named spelled,
    isTestCode_asAttribute p comma, counts, fun told => ?_⟩
  rw [counts, showsTest_singleton, told.iff]

/-- It is told that `test` is demanded where it is the last of two conditions. -/
theorem conditionsOnTest_testLast :
    trees? "#[cfg(all(unix,test))]".toList = some (attributeTokens
      (wordOf lexemes?_last "cfg" 3 (by simp [attributeLexemes])) testLast false) ∧
    testLast.IsTold ∧ testLast.RequiresTest ∧
    ∃ a, parseAttributes? "#[cfg(all(unix,test))]" = some [a] ∧ a.conditionsOnTest = true := by
  have told : testLast.IsTold :=
    .all (List.forall_mem_cons.mpr ⟨.flag, List.forall_mem_singleton.mpr .flag⟩)
      fun _ => .inr ⟨rfl, _, rfl, _, rfl, rfl⟩
  have requires : testLast.RequiresTest :=
    .all (List.mem_cons_of_mem _ List.mem_cons_self) (.test ⟨_, rfl, rfl⟩)
  obtain ⟨a, parses, _, _, tells⟩ := conditionsOnTest_iff rfl trees?_testLast
  exact ⟨trees?_testLast, told, requires, a, parses, (tells told).mpr requires⟩

/-- Code that is compiled without tests alone counts as test code, and code that is compiled for
tests alone does not where `test` is between other conditions. -/
theorem isTestCode_misled :
    (trees? "#[cfg(not(test))]".toList = some (attributeTokens
        (wordOf lexemes?_negated "cfg" 3 (by simp [attributeLexemes])) testNegated false) ∧
      ¬ testNegated.RequiresTest ∧
      (parseAttributes? "#[cfg(not(test))]").map isTestCode = some true) ∧
    trees? "#[cfg(all(unix,test,windows))]".toList = some (attributeTokens
        (wordOf lexemes?_between "cfg" 3 (by simp [attributeLexemes])) testBetween false) ∧
      testBetween.RequiresTest ∧
      (parseAttributes? "#[cfg(all(unix,test,windows))]").map isTestCode = some false := by
  refine ⟨⟨trees?_testNegated, ?_, by decide +kernel⟩, trees?_testBetween, ?_, by decide +kernel⟩
  · rintro ⟨⟨_, same, _⟩⟩
    cases same
  · exact .all (List.mem_cons_of_mem _ List.mem_cons_self) (.test ⟨_, rfl, rfl⟩)

end Condition

end SourceLint.Source
