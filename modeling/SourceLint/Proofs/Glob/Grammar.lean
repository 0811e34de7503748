import Mathlib.Data.List.Basic
import SourceLint.Glob.Pattern

/-! # Which patterns compile

A star stands alone, or two of them stand for a whole path component. A bracket needs its partner,
which is neither right behind it nor right behind the mark that negates the class. Every other
character can stand anywhere.
-/

namespace SourceLint.Glob

/-- The characters make a pattern, behind a character or at the front. -/
inductive IsPattern : Option Char → List Char → Prop where
  | nil {previous : Option Char} : IsPattern previous []
  | one {previous : Option Char} {c : Char} {cs : List Char} (star : c ≠ '*') (bracket : c ≠ '[')
    (rest : IsPattern c cs) : IsPattern previous (c :: cs)
  | star {previous : Option Char} {cs : List Char} (alone : cs.head? ≠ some '*')
    (rest : IsPattern '*' cs) : IsPattern previous ('*' :: cs)
  | lastDirectories {previous : Option Char} (front : previous = none ∨ previous = some '/') :
    IsPattern previous ['*', '*']
  | directories {previous : Option Char} {cs : List Char}
    (front : previous = none ∨ previous = some '/') (rest : IsPattern '/' cs) :
    IsPattern previous ('*' :: '*' :: '/' :: cs)
  | bracketed {previous : Option Char} {cs mark inside more : List Char} {first : Char}
    (split : cs = mark ++ first :: (inside ++ ']' :: more))
    (negated : mark = ['!'] ∨ mark = [] ∧ first ≠ '!') (closed : ']' ∉ inside)
    (rest : IsPattern ']' more) : IsPattern previous ('[' :: cs)

variable {cs inside more : List Char} {previous : Option Char} {c : Char}

/-! ## Brackets -/

theorem untilBracket_eq_some_iff :
    untilBracket cs = some (inside, more) ↔ cs = inside ++ ']' :: more ∧ ']' ∉ inside := by
  induction cs generalizing inside with
  | nil => simp [untilBracket]
  | cons c cs ih =>
      by_cases bracket : c = ']'
      · subst bracket
        constructor
        · rintro ⟨⟩
          exact ⟨rfl, List.not_mem_nil⟩
        · rintro ⟨split, closed⟩
          cases inside with
          | nil =>
              obtain rfl := (List.cons.inj split).2
              rfl
          | cons d inside => exact absurd (List.mem_cons.mpr (.inl (List.cons.inj split).1)) closed
      · rw [untilBracket.eq_3 _ _ bracket, Option.map_eq_some_iff]
        constructor
        · rintro ⟨⟨inside, more⟩, read, ⟨⟩⟩
          obtain ⟨rfl, closed⟩ := ih.mp read
          exact ⟨rfl, List.not_mem_cons_of_ne_of_not_mem (Ne.symm bracket) closed⟩
        · rintro ⟨split, closed⟩
          cases inside with
          | nil => exact absurd (List.cons.inj split).1 bracket
          | cons d inside =>
              obtain ⟨rfl, rest⟩ := List.cons.inj split
              exact ⟨(inside, more), ih.mpr ⟨rest, List.not_mem_of_not_mem_cons closed⟩, rfl⟩

theorem map_untilBracket_iff {f : List Char × List Char → Token × Nat × List Char}
    (keeps : ∀ r, (f r).2.2 = r.2) :
    (∃ token size, (untilBracket cs).map f = some (token, size, more)) ↔
      ∃ inside, cs = inside ++ ']' :: more ∧ ']' ∉ inside := by
  simp only [← untilBracket_eq_some_iff, Option.map_eq_some_iff]
  constructor
  · rintro ⟨token, size, ⟨inside, after⟩, read, made⟩
    have same := keeps (inside, after)
    rw [made] at same
    obtain rfl : more = after := same
    exact ⟨inside, read⟩
  · rintro ⟨inside, read⟩
    exact ⟨(f (inside, more)).1, (f (inside, more)).2.1, (inside, more), read,
      Prod.ext rfl (Prod.ext rfl (keeps (inside, more)))⟩

/-- A class is read where its bracket is closed, and leaves what follows. -/
theorem classToken?_iff : (∃ token size, classToken? cs = some (token, size, more)) ↔
    ∃ mark first inside, cs = mark ++ first :: (inside ++ ']' :: more) ∧
      (mark = ['!'] ∨ mark = [] ∧ first ≠ '!') ∧ ']' ∉ inside := by
  -- A class with a mark, the mark alone, a class without one, nothing at all.
  unfold classToken?
  split
  · rename_i first rest
    rw [map_untilBracket_iff fun _ => rfl]
    constructor
    · rintro ⟨inside, rfl, closed⟩
      exact ⟨['!'], first, inside, rfl, .inl rfl, closed⟩
    · rintro ⟨mark, other, inside, split, rfl | ⟨rfl, plain⟩, closed⟩
      · obtain ⟨rfl, rest⟩ := List.cons.inj (List.cons.inj split).2
        exact ⟨inside, rest, closed⟩
      · exact absurd (List.cons.inj split).1.symm plain
  · constructor
    · rintro ⟨_, _, ⟨⟩⟩
    · rintro ⟨mark, other, inside, split, rfl | ⟨rfl, plain⟩, closed⟩
      · cases (List.cons.inj split).2
      · exact absurd (List.cons.inj split).1.symm plain
  · rename_i first rest negates alone
    have plain : first ≠ '!' := by
      rintro rfl
      cases rest with
      | nil => exact alone rfl rfl
      | cons d rest => exact negates d rest rfl rfl
    rw [map_untilBracket_iff fun _ => rfl]
    constructor
    · rintro ⟨inside, rfl, closed⟩
      exact ⟨[], first, inside, rfl, .inr ⟨rfl, plain⟩, closed⟩
    · rintro ⟨mark, other, inside, split, rfl | ⟨rfl, _⟩, closed⟩
      · exact absurd (List.cons.inj split).1 plain
      · exact ⟨inside, (List.cons.inj split).2, closed⟩
  · constructor
    · rintro ⟨_, _, ⟨⟩⟩
    · rintro ⟨mark, other, inside, split, _, _⟩
      simp at split

/-! ## Heads -/

theorem isPattern_cons_iff (star : c ≠ '*') (bracket : c ≠ '[') :
    IsPattern previous (c :: cs) ↔ IsPattern c cs := by
  constructor
  · intro pattern
    cases pattern with
    | one _ _ rest => exact rest
    | star | lastDirectories | directories => exact absurd rfl star
    | bracketed => exact absurd rfl bracket
  · exact .one star bracket

theorem isPattern_star_iff (alone : cs.head? ≠ some '*') :
    IsPattern previous ('*' :: cs) ↔ IsPattern '*' cs := by
  constructor
  · intro pattern
    cases pattern with
    | one star => exact absurd rfl star
    | star _ rest => exact rest
    | lastDirectories | directories => exact absurd rfl alone
  · exact .star alone

theorem isPattern_directories_iff : IsPattern previous ('*' :: '*' :: cs) ↔
    (previous = none ∨ previous = some '/') ∧
      (cs = [] ∨ ∃ more, cs = '/' :: more ∧ IsPattern '/' more) := by
  constructor
  · intro pattern
    cases pattern with
    | one star => exact absurd rfl star
    | star alone => exact absurd rfl alone
    | lastDirectories front => exact ⟨front, .inl rfl⟩
    | directories front rest => exact ⟨front, .inr ⟨_, rfl, rest⟩⟩
  · rintro ⟨front, rfl | ⟨more, rfl, rest⟩⟩
    · exact .lastDirectories front
    · exact .directories front rest

theorem isPattern_bracket_iff : IsPattern previous ('[' :: cs) ↔
    ∃ token size more, classToken? cs = some (token, size, more) ∧ IsPattern ']' more := by
  constructor
  · intro pattern
    cases pattern with
    | one _ bracket => exact absurd rfl bracket
    | bracketed split negated closed rest =>
        obtain ⟨token, size, read⟩ := classToken?_iff.mpr ⟨_, _, _, split, negated, closed⟩
        exact ⟨token, size, _, read, rest⟩
  · rintro ⟨token, size, more, read, rest⟩
    obtain ⟨mark, first, inside, split, negated, closed⟩ := classToken?_iff.mp ⟨token, size, read⟩
    exact .bracketed split negated closed rest

/-! ## Compiling -/

section Compiling

variable {steps : Nat} (tokens : List Token) (i : Nat)

theorem compileFrom_star (alone : cs.head? ≠ some '*') :
    compileFrom (steps + 1) tokens previous i ('*' :: cs) =
      compileFrom steps (tokens ++ [.anyText]) '*' (i + 1) cs := by
  conv => lhs; unfold compileFrom
  rw [if_neg (by decide), if_pos rfl]
  split
  · exact absurd rfl alone
  · exact absurd rfl alone
  · rfl

theorem compileFrom_directories : cs.head? ≠ some '*' →
    compileFrom (steps + 1) tokens previous i ('*' :: '*' :: cs) =
      if previous = none ∨ previous = some '/' then
        match cs with
        | [] => .ok (addDirectories tokens)
        | '/' :: after => compileFrom steps (addDirectories tokens) '/' (i + 3) after
        | _ => .error ⟨i + 2, .partialDirectories⟩
      else .error ⟨i - 1, .partialDirectories⟩ := by
  intro alone
  conv => lhs; unfold compileFrom
  rw [if_neg (by decide), if_pos rfl]
  split
  · rename_i split
    obtain rfl := (List.cons.inj split).2
    exact absurd rfl alone
  · rename_i split
    obtain rfl := (List.cons.inj split).2
    rfl
  · rename_i split
    exact absurd rfl (split cs)

theorem compileFrom_directories_ok_iff
    (step : ∀ more, cs = '/' :: more → ∀ tokens i,
      ((∃ found, compileFrom steps tokens '/' i more = .ok found) ↔ IsPattern '/' more)) :
    (∃ found, compileFrom (steps + 1) tokens previous i ('*' :: '*' :: cs) = .ok found) ↔
      IsPattern previous ('*' :: '*' :: cs) := by
  rw [isPattern_directories_iff]
  by_cases run : cs.head? = some '*'
  · obtain ⟨more, rfl⟩ := List.head?_eq_some_iff.mp run
    simp [compileFrom]
  · rw [compileFrom_directories tokens i run]
    by_cases front : previous = none ∨ previous = some '/'
    · rw [if_pos front, and_iff_right front]
      split
      · simp
      · rename_i more
        simp [step more rfl]
      · rename_i empty slash
        have other : ¬ (cs = [] ∨ ∃ more, cs = '/' :: more ∧ IsPattern '/' more) := by
          rintro (rfl | ⟨more, rfl, _⟩)
          · exact empty rfl
          · exact slash more rfl
        simp only [reduceCtorEq, exists_false, other]
    · rw [if_neg front]
      simp only [reduceCtorEq, exists_false, front, false_and]

theorem compileFrom_bracket_ok_iff
    (step : ∀ token size more, classToken? cs = some (token, size, more) → ∀ tokens i,
      ((∃ found, compileFrom steps tokens ']' i more = .ok found) ↔ IsPattern ']' more)) :
    (∃ found, compileFrom (steps + 1) tokens previous i ('[' :: cs) = .ok found) ↔
      IsPattern previous ('[' :: cs) := by
  rw [isPattern_bracket_iff]
  unfold compileFrom
  rw [if_neg (by decide), if_neg (by decide), if_pos rfl]
  cases read : classToken? cs with
  | none => simp
  | some r =>
      obtain ⟨token, size, more⟩ := r
      simp [step token size more read]

theorem length_lt_of_classToken? {token : Token} {size : Nat}
    (read : classToken? cs = some (token, size, more)) : more.length < cs.length := by
  obtain ⟨mark, first, inside, rfl, _⟩ := classToken?_iff.mp ⟨token, size, read⟩
  simp
  omega

/-- With a step for each character, compiling ends well just where the characters make a pattern. -/
theorem compileFrom_ok_iff (enough : cs.length ≤ steps) :
    (∃ found, compileFrom steps tokens previous i cs = .ok found) ↔ IsPattern previous cs := by
  induction steps generalizing cs tokens previous i with
  | zero =>
      obtain rfl := List.eq_nil_of_length_eq_zero (Nat.le_zero.mp enough)
      exact ⟨fun _ => .nil, fun _ => ⟨tokens, rfl⟩⟩
  | succ steps ih =>
      cases cs with
      | nil => exact ⟨fun _ => .nil, fun _ => ⟨tokens, rfl⟩⟩
      | cons c cs =>
          have fewer : cs.length ≤ steps := Nat.le_of_succ_le_succ enough
          by_cases star : c = '*'
          · subst star
            by_cases alone : cs.head? = some '*'
            · obtain ⟨rest, rfl⟩ := List.head?_eq_some_iff.mp alone
              refine compileFrom_directories_ok_iff tokens i fun more split tokens i => ih _ _ ?_
              subst split
              exact Nat.le_trans (Nat.le_add_right _ 2) fewer
            · rw [compileFrom_star tokens i alone, ih _ _ fewer, isPattern_star_iff alone]
          · by_cases bracket : c = '['
            · subst bracket
              exact compileFrom_bracket_ok_iff tokens i fun token size more read tokens i =>
                ih _ _ (Nat.le_trans (Nat.le_of_lt (length_lt_of_classToken? read)) fewer)
            · rw [isPattern_cons_iff star bracket]
              unfold compileFrom
              rw [if_neg star, if_neg bracket]
              split
              · exact ih _ _ fewer
              · exact ih _ _ fewer

/-- A text compiles just where its characters make a pattern. -/
theorem compile_ok_iff {pattern : String} :
    (∃ tokens, compile pattern = .ok tokens) ↔ IsPattern none pattern.toList :=
  compileFrom_ok_iff [] 0 (Nat.le_refl _)

end Compiling

end SourceLint.Glob
