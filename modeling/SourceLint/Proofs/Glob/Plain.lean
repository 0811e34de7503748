import SourceLint.Glob.Matching
import SourceLint.Text.Blank

/-! # Plain patterns

A pattern without wildcards compiles and matches itself alone. Blank patterns are of this
kind, so no text that has something in it is matched by one.
-/

namespace SourceLint.Glob

/-- The character means something else than itself in a pattern. -/
def isWild (c : Char) : Bool :=
  c = '?' || c = '*' || c = '['

/-- The tokens of a text that stands for itself. -/
def plainTokens (cs : List Char) : List Token :=
  cs.map fun c => .one (.is c)

/-! ## Compiling -/

theorem compileFrom_cons {c : Char} (wildless : isWild c = false) (steps : Nat)
    (tokens : List Token) (previous : Option Char) (i : Nat) (cs : List Char) :
    compileFrom (steps + 1) tokens previous i (c :: cs) =
      compileFrom steps (tokens ++ [.one (.is c)]) (some c) (i + 1) cs := by
  simp only [isWild, Bool.or_eq_false_iff, decide_eq_false_iff_not] at wildless
  obtain ⟨⟨question, star⟩, bracket⟩ := wildless
  conv => lhs; unfold compileFrom
  rw [if_neg question, if_neg star, if_neg bracket]

theorem compileFrom_plain {plain : List Char} (wildless : ∀ c ∈ plain, isWild c = false)
    (steps : Nat) (tokens : List Token) (previous : Option Char) (i : Nat) (rest : List Char) :
    compileFrom (plain.length + steps) tokens previous i (plain ++ rest) =
      compileFrom steps (tokens ++ plainTokens plain) (plain.getLast?.or previous)
        (i + plain.length) rest := by
  induction plain generalizing tokens previous i with
  | nil => simp [plainTokens]
  | cons c cs ih =>
      have last : (c :: cs).getLast?.or previous = cs.getLast?.or (some c) := by
        rw [List.getLast?_cons]
        cases cs.getLast? <;> rfl
      rw [List.length_cons, Nat.add_right_comm, List.cons_append,
        compileFrom_cons (wildless c List.mem_cons_self),
        ih fun d member => wildless d (List.mem_cons_of_mem _ member), last, List.append_assoc,
        Nat.add_assoc, Nat.add_comm 1]
      rfl

theorem compile_append {plain : String} (wildless : ∀ c ∈ plain.toList, isWild c = false)
    (rest : String) : compile (plain ++ rest) =
      compileFrom rest.toList.length (plainTokens plain.toList) plain.toList.getLast?
        plain.toList.length rest.toList := by
  rw [compile, String.toList_append, List.length_append, compileFrom_plain wildless]
  simp

theorem compile_plain {pattern : String} (wildless : ∀ c ∈ pattern.toList, isWild c = false) :
    compile pattern = .ok (plainTokens pattern.toList) := by
  have whole := compile_append wildless ""
  rwa [String.append_empty] at whole

/-! ## Matching -/

theorem matchTokens_plainTokens {cs ds : List Char} :
    matchTokens (plainTokens cs) ds = true ↔ ds = cs := by
  induction cs generalizing ds with
  | nil => simp [plainTokens, matchTokens]
  | cons c cs ih =>
      cases ds with
      | nil => simp [plainTokens, matchTokens]
      | cons d ds =>
          rw [plainTokens, List.map_cons, matchTokens, Bool.and_eq_true, CharTest.admits,
            decide_eq_true_eq, ← plainTokens, ih, List.cons.injEq]

theorem mem_tails {cs ds : List Char} : ds ∈ tails cs ↔ ds <:+ cs := by
  induction cs with
  | nil => simp [tails]
  | cons c cs ih => rw [tails, List.mem_cons, ih, List.suffix_cons_iff]

/-- A star ahead of a text that stands for itself asks for nothing but that end. -/
theorem matchTokens_star_plainTokens {cs ds : List Char} :
    matchTokens (.anyText :: plainTokens cs) ds = true ↔ cs <:+ ds := by
  rw [matchTokens, List.any_eq_true]
  constructor
  · rintro ⟨tail, member, matched⟩
    rw [matchTokens_plainTokens] at matched
    exact matched ▸ mem_tails.mp member
  · intro suffix
    exact ⟨cs, mem_tails.mpr suffix, matchTokens_plainTokens.mpr rfl⟩

theorem matchesAny_iff {patterns : List String} {text : String} : matchesAny patterns text = true ↔
    ∃ p ∈ patterns, ∃ tokens, compile p = .ok tokens ∧ «matches» tokens text = true := by
  have compiled (p : String) (tokens : List Token) :
      (compile p).toOption = some tokens ↔ compile p = .ok tokens := by
    cases compile p <;> simp [Except.toOption]
  simp only [matchesAny, compileAll, List.any_eq_true, List.mem_filterMap, compiled]
  exact ⟨fun ⟨tokens, ⟨p, member, ok⟩, matched⟩ => ⟨p, member, tokens, ok, matched⟩,
    fun ⟨p, member, tokens, ok, matched⟩ => ⟨tokens, ⟨p, member, ok⟩, matched⟩⟩

theorem matches_eq_false {patterns : List String} {p : String} (member : p ∈ patterns)
    {tokens : List Token} (compiled : compile p = .ok tokens) {text : String}
    (kept : matchesAny patterns text = false) : «matches» tokens text = false := by
  cases matched : «matches» tokens text with
  | false => rfl
  | true => exact (matchesAny_iff.mpr ⟨p, member, tokens, compiled, matched⟩).symm.trans kept

theorem matchesAny_append (patterns others : List String) (text : String) :
    matchesAny (patterns ++ others) text = (matchesAny patterns text || matchesAny others text) := by
  simp only [matchesAny, compileAll, List.filterMap_append, List.any_append]

/-! ## Blank patterns -/

theorem isWild_of_isBlank {c : Char} (blank : Text.isBlank c) : isWild c = false := by
  cases wild : isWild c with
  | false => rfl
  | true =>
      simp only [isWild, Bool.or_eq_true, decide_eq_true_eq] at wild
      rcases wild with (rfl | rfl) | rfl <;> exact absurd blank (by decide)

theorem matches_blank {pattern text : String} {tokens : List Token}
    (blank : Text.isBlankText pattern) (compiled : compile pattern = .ok tokens)
    (matched : «matches» tokens text) : Text.isBlankText text := by
  have all := List.all_eq_true.mp blank
  rw [compile_plain fun c member => isWild_of_isBlank (all c member)] at compiled
  cases compiled
  rw [«matches», matchTokens_plainTokens] at matched
  rwa [Text.isBlankText, matched]

/-- The pattern is not blank, and compiles. -/
def isSensible (pattern : String) : Bool :=
  !Text.isBlankText pattern && isValid pattern

theorem isSensible_iff {pattern : String} : isSensible pattern = true ↔
    Text.isBlankText pattern = false ∧ ∃ tokens, compile pattern = .ok tokens := by
  rw [isSensible, isValid, Bool.and_eq_true, Bool.not_eq_true']
  cases compile pattern <;> simp [Except.toBool]

/-- Patterns that make no sense match nothing that is not blank itself. -/
theorem matchesAny_filter_isSensible (patterns : List String) {text : String}
    (inked : Text.isBlankText text = false) :
    matchesAny (patterns.filter isSensible) text = matchesAny patterns text := by
  rw [Bool.eq_iff_iff, matchesAny_iff, matchesAny_iff]
  constructor
  · rintro ⟨p, member, matched⟩
    exact ⟨p, (List.mem_filter.mp member).1, matched⟩
  · rintro ⟨p, member, tokens, compiled, matched⟩
    have sensible : isSensible p = true := by
      refine isSensible_iff.mpr ⟨?_, tokens, compiled⟩
      cases blank : Text.isBlankText p with
      | false => rfl
      | true => exact (matches_blank blank compiled matched).symm.trans inked
    exact ⟨p, List.mem_filter.mpr ⟨member, sensible⟩, tokens, compiled, matched⟩

end SourceLint.Glob
