import Mathlib.Algebra.Group.Int.Defs
import Mathlib.Algebra.Group.Nat.Defs
import SourceLint.Proofs.Config.Lossless

/-! # Numbers in a configuration

A literal is a number where it spells one that a machine word holds, with or without white space
around it. The bounds of the line rule are counts, and the number of workers is an integer, which is
used where it is one of those that make sense.
-/

namespace SourceLint

open Markup (Element)

namespace Text

/-- The text spells a count that a machine word holds. -/
def SpellsCount (s : String) (n : Nat) : Prop :=
  Spells s n ∧ 1 ≤ n ∧ n ≤ 2 ^ 64 - 1

/-- The text spells an integer that a signed machine word holds. -/
def SpellsWord (s : String) (n : Int) : Prop :=
  SpellsInteger s n ∧ -2 ^ 63 ≤ n ∧ n ≤ 2 ^ 63 - 1

theorem parsePositive_iff_spellsCount {s : String} {n : Nat} :
    parsePositive s = some n ↔ SpellsCount s n := by
  have limit : maxWord = 2 ^ 64 - 1 := rfl
  rw [parsePositive_eq_some_iff, limit, SpellsCount]
  exact Iff.rfl

theorem parseInteger_iff_spellsWord {s : String} {n : Int} :
    parseInteger s = some n ↔ SpellsWord s n := by
  have half : halfWord = 2 ^ 63 := rfl
  rw [parseInteger_eq_some_iff, half, SpellsWord]
  simp only [and_congr_right_iff]
  omega

end Text

open Text (SpellsCount SpellsWord isBlankText)

namespace Binding

variable {s : Schema} {e : Element} {b : Bound} {field : Schema.Field} {name raw : String}

theorem convert_integer_iff {v : FieldValue} :
    convert raw .integer = some v ↔ ∃ n, SpellsWord raw n ∧ v = .integer n := by
  simp only [convert, Option.map_eq_some_iff, Text.parseInteger_iff_spellsWord, eq_comm (a := v)]

theorem bindAttributes_integer (found : s.field? name = some field)
    (kind : field.kind = .integer) (at_ : Option Position) (values : List (String × FieldValue))
    (raw : String) : bindAttributes s at_ values [⟨name, raw⟩] =
      match Text.parseInteger raw with
      | some n => .ok (Bound.put values field.name (.integer n))
      | none => .error (.invalidValue s.name field.name raw .integer at_) := by
  simp only [bindAttributes, found, kind, convert]
  cases Text.parseInteger raw <;> rfl

/-- Binding reads the literals of the attribute as the integers that they spell, the last one where
there are several, and refuses what spells none. -/
structure ReadsIntegers (s : Schema) (field : Schema.Field) : Prop where
  accepts : ∀ at_ values raw values',
    bindAttributes s at_ values [⟨field.name, raw⟩] = .ok values' ↔
      ∃ n, SpellsWord raw n ∧ values' = Bound.put values field.name (.integer n)
  refuses : ∀ at_ values raw e,
    bindAttributes s at_ values [⟨field.name, raw⟩] = .error e ↔
      (¬ ∃ n, SpellsWord raw n) ∧ e = .invalidValue s.name field.name raw .integer at_
  spelled : ∀ e b, bindNode s e = .ok b → ∀ a ∈ e.attributes, a.name = field.name →
    ∃ n, SpellsWord a.value n
  holds : ∀ e b, bindNode s e = .ok b → ∀ n, b.integer? field.name = some n ↔
    ∃ raw, e.lastAttribute? field.name = some raw ∧ SpellsWord raw n

theorem readsIntegers (found : s.field? field.name = some field) (kind : field.kind = .integer) :
    ReadsIntegers s field where
  accepts at_ values raw values' := by
    simp only [bindAttributes_integer found kind, ← Text.parseInteger_iff_spellsWord]
    cases Text.parseInteger raw <;> simp [eq_comm]
  refuses at_ values raw e := by
    simp only [bindAttributes_integer found kind, ← Text.parseInteger_iff_spellsWord]
    cases Text.parseInteger raw <;> simp [eq_comm]
  spelled e b bound a member named := by
    obtain ⟨⟨converts⟩, _⟩ := bindNode_eq_ok_iff.mp bound
    obtain ⟨declared, v, known, read⟩ := converts a member
    rw [named, found] at known
    obtain rfl := Option.some.inj known
    rw [kind] at read
    obtain ⟨n, spelled, _⟩ := convert_integer_iff.mp read
    exact ⟨n, spelled⟩
  holds e b bound n := by
    obtain ⟨conforms, rfl⟩ := bindNode_eq_ok_iff.mp bound
    rw [(conforms.gives_integer found kind).value, Option.bind_eq_some_iff]
    simp only [Text.parseInteger_iff_spellsWord]

end Binding

namespace Markup.Element

/-- A document with a number of workers and nothing else. -/
def ofWorkers (raw : String) (inner outer : Option Position) : Element :=
  ⟨"config", [], [⟨"Analyzer", [⟨"parallelism", raw⟩], [], inner⟩], outer⟩

/-- The document gives that number of workers, in range or not. -/
def AsksForWorkers (root : Element) (n : Int) : Prop :=
  ∃ child ∈ root.children, child.name = "Analyzer" ∧
    ∃ raw, child.lastAttribute? "parallelism" = some raw ∧ SpellsWord raw n

end Markup.Element

namespace Config

theorem validParallelism?_eq_some_iff {n : Int} {m : Nat} :
    validParallelism? n = some m ↔ n = m ∧ 1 ≤ m ∧ m ≤ 256 := by
  have limit : maxParallelism = 256 := rfl
  simp only [validParallelism?, limit, Option.ite_none_right_eq_some, Option.some.injEq]
  omega

theorem parallelism?_eq_some_iff {c : Config} {m : Nat} : c.parallelism? = some m ↔
    (∃ s, c.analyzer = some s ∧ s.parallelism = some (m : Int)) ∧ 1 ≤ m ∧ m ≤ 256 := by
  simp only [parallelism?, Option.bind_eq_some_iff, validParallelism?_eq_some_iff]
  constructor
  · rintro ⟨_, ⟨s, there, given⟩, rfl, sensible⟩
    exact ⟨⟨s, there, given⟩, sensible⟩
  · rintro ⟨⟨s, there, given⟩, sensible⟩
    exact ⟨_, ⟨s, there, given⟩, rfl, sensible⟩

theorem parallelism_iff_asksForWorkers {root : Element} {c : Config} (tells : c.Tells root)
    {n : Int} : (∃ s, c.analyzer = some s ∧ s.parallelism = some n) ↔ root.AsksForWorkers n := by
  have has := tells.analyzer
  cases there : c.analyzer with
  | none =>
      rw [there] at has
      constructor
      · rintro ⟨_, ⟨⟩, _⟩
      · rintro ⟨child, member, named, _⟩
        exact absurd named (has child member)
  | some s =>
      rw [there] at has
      obtain ⟨child, only, tells⟩ := has
      -- A document has one such child at most, so any that is found is the one that was bound.
      have kept (other : Element) :
          other ∈ root.children ∧ other.name = "Analyzer" ↔ other = child := by
        rw [← List.mem_singleton (b := child), ← only, List.mem_filter, decide_eq_true_eq]
      have reads : s.parallelism = some n ↔
          ∃ raw, child.lastAttribute? "parallelism" = some raw ∧ SpellsWord raw n := by
        simp only [tells.parallelism.value, Option.bind_eq_some_iff,
          Text.parseInteger_iff_spellsWord]
      simp only [Element.AsksForWorkers, Option.some.injEq, exists_eq_left', reads, ← and_assoc,
        kept, exists_eq_left]

theorem bind_ofWorkers (raw : String) (inner outer : Option Position) :
    bind (.ofWorkers raw inner outer) =
      match Text.parseInteger raw with
      | some n => .ok
        { analyzer := some { parallelism := some n, position := inner }, position := outer }
      | none => .error (.invalidValue "Analyzer" "parallelism" raw .integer inner) := by
  have root : Schema.config.name = "config" := rfl
  have child : Schema.config.child? "Analyzer" = some Schema.analyzer := rfl
  have found : Schema.analyzer.field? "parallelism" =
      some (Schema.optionalField "parallelism" .integer) := rfl
  have attributes := Binding.bindAttributes_integer found rfl inner [] raw
  simp only [bind, Element.ofWorkers, Binding.bind, root, if_true, Binding.bindNode,
    Binding.bindChildren, child, attributes]
  cases Text.parseInteger raw <;> rfl

/-- The number of workers is what a document asks for, where that makes sense. -/
structure ReadsWorkers : Prop where
  asked : ∀ root c, bind root = .ok c → ∀ m : Nat,
    c.parallelism? = some m ↔ root.AsksForWorkers m ∧ 1 ≤ m ∧ m ≤ 256
  alone : ∀ raw inner outer c, bind (.ofWorkers raw inner outer) = .ok c ↔
    ∃ n, SpellsWord raw n ∧
      c = { analyzer := some { parallelism := some n, position := inner }, position := outer }

theorem readsWorkers : ReadsWorkers where
  asked root c bound m := by
    rw [parallelism?_eq_some_iff, parallelism_iff_asksForWorkers (tells_of_bind bound)]
  alone raw inner outer c := by
    rw [bind_ofWorkers]
    simp only [← Text.parseInteger_iff_spellsWord]
    cases Text.parseInteger raw <;> simp [eq_comm]

/-- Numbers that are written out, with this in front of them and that behind, are read back. -/
structure ReadsBack (before after : String) : Prop where
  count : ∀ n : Nat, 1 ≤ n → n ≤ 2 ^ 64 - 1 →
    Text.parsePositive (before ++ toString n ++ after) = some n
  integer : ∀ n : Int, -2 ^ 63 ≤ n → n ≤ 2 ^ 63 - 1 →
    Binding.convert (before ++ toString n ++ after) .integer = some (.integer n)
  workers : ∀ n : Int, -2 ^ 63 ≤ n → n ≤ 2 ^ 63 - 1 → ∀ inner outer, ∃ c,
    bind (.ofWorkers (before ++ toString n ++ after) inner outer) = .ok c ∧
      ∀ m : Nat, c.parallelism? = some m ↔ n = m ∧ 1 ≤ n ∧ n ≤ 256

theorem readsBack {before after : String} (first : isBlankText before) (last : isBlankText after) :
    ReadsBack before after where
  count n positive small :=
    Text.parsePositive_iff_spellsCount.mpr ⟨Text.spells_toString first last n, positive, small⟩
  integer n low high :=
    Binding.convert_integer_iff.mpr ⟨n, ⟨Text.spellsInteger_toString first last n, low, high⟩, rfl⟩
  workers n low high inner outer := by
    have spelled : SpellsWord (before ++ toString n ++ after) n :=
      ⟨Text.spellsInteger_toString first last n, low, high⟩
    refine ⟨_, (readsWorkers.alone _ inner outer _).mpr ⟨n, spelled, rfl⟩, ?_⟩
    intro m
    simp only [parallelism?_eq_some_iff, Option.some.injEq, exists_eq_left']
    omega

/-- The numbers that are read are those that are spelled and fit their words, as counts and as the
integers that attributes hold, and a number of workers is used where it makes sense. So numbers that
are written out are read back, whatever white space there is around them. -/
theorem reads_spelledNumbers :
    (∀ s n, Text.parsePositive s = some n ↔ SpellsCount s n) ∧
    (∀ raw v, Binding.convert raw .integer = some v ↔ ∃ n, SpellsWord raw n ∧ v = .integer n) ∧
    (∀ (s : Schema) (field : Schema.Field), s.field? field.name = some field →
      field.kind = .integer → Binding.ReadsIntegers s field) ∧
    ReadsWorkers ∧
    ∀ before after : String, isBlankText before → isBlankText after → ReadsBack before after := by
  refine ⟨?_, ?_, ?_, readsWorkers, ?_⟩
  · intro s n
    exact Text.parsePositive_iff_spellsCount
  · intro raw v
    exact Binding.convert_integer_iff
  · intro s field found kind
    exact Binding.readsIntegers found kind
  · intro before after first last
    exact readsBack first last

/-- The limits of the words and of the workers, between white space, and numbers past them. -/
theorem reads_limits :
    isBlankText "\u2003" ∧ isBlankText " \n" ∧
      Text.parsePositive ("\u2003" ++ toString 18446744073709551615 ++ " \n") =
        some 18446744073709551615 ∧
      ¬ (∃ n, SpellsCount "+18446744073709551616" n) ∧ SpellsCount "+007" 7 ∧
      Binding.convert ("\u2003" ++ toString (-9223372036854775808 : Int) ++ " \n") .integer =
        some (.integer (-9223372036854775808)) ∧
      Binding.bindAttributes Schema.analyzer none [] [⟨"parallelism", "9223372036854775808"⟩] =
        .error (.invalidValue "Analyzer" "parallelism" "9223372036854775808" .integer none) ∧
      (∃ c, bind (.ofWorkers ("\u2003" ++ toString (256 : Int) ++ " \n") none none) = .ok c ∧
        c.parallelism? = some 256) ∧
      ∃ c, bind (.ofWorkers ("\u2003" ++ toString (257 : Int) ++ " \n") none none) = .ok c ∧
        c.parallelism? = none := by
  have first : isBlankText "\u2003" = true := by decide
  have last : isBlankText " \n" = true := by decide
  obtain ⟨counts, integers, attributes, _, back⟩ := reads_spelledNumbers
  have back := back _ _ first last
  have large : ¬ ∃ n, SpellsCount "+18446744073709551616" n := by
    rintro ⟨n, spelled⟩
    have unread : Text.parsePositive "+18446744073709551616" = none := by decide
    exact absurd ((counts _ n).mpr spelled) (by rw [unread]; exact nofun)
  have past : ¬ ∃ n, SpellsWord "9223372036854775808" n := by
    rintro ⟨n, spelled⟩
    have unread : Binding.convert "9223372036854775808" .integer = none := by decide
    exact absurd ((integers _ _).mpr ⟨n, spelled, rfl⟩) (by rw [unread]; exact nofun)
  have workers := attributes Schema.analyzer (Schema.optionalField "parallelism" .integer) rfl rfl
  obtain ⟨c, bound, used⟩ := back.workers 256 (by decide) (by decide) none none
  obtain ⟨c', bound', unused⟩ := back.workers 257 (by decide) (by decide) none none
  refine ⟨first, last, back.count _ (by decide) (by decide), large, (counts _ _).mp (by decide),
    back.integer _ (by decide) (by decide), (workers.refuses _ _ _ _).mpr ⟨past, rfl⟩,
    ⟨c, bound, (used 256).mpr (by decide)⟩, c', bound', ?_⟩
  apply Option.eq_none_iff_forall_ne_some.mpr
  intro m given
  exact absurd ((unused m).mp given).2.2 (by decide)

end Config

end SourceLint
