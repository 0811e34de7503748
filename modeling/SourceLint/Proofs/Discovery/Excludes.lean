import SourceLint.Discovery
import SourceLint.Proofs.Glob.Plain

/-! # Excludes take files out

A file is left out when one of the excludes matches it. So excludes only ever take files out, each
for itself and in whatever order they are given, and those that do not compile take out none.
-/

namespace SourceLint

variable {excludes others : List String} {path : Path} {tree : FileTree} {root : Path}

theorem isExcluded_iff :
    isExcluded excludes path = true ↔ ∃ p ∈ excludes, isExcluded [p] path = true := by
  simp only [isExcluded, Glob.matchesAny_iff, List.mem_singleton, exists_eq_left]

theorem isExcluded_append (excludes others : List String) (path : Path) :
    isExcluded (excludes ++ others) path = (isExcluded excludes path || isExcluded others path) :=
  Glob.matchesAny_append excludes others path.text

theorem isExcluded_congr (same : ∀ p, p ∈ excludes ↔ p ∈ others) (path : Path) :
    isExcluded excludes path = isExcluded others path := by
  rw [Bool.eq_iff_iff, isExcluded_iff, isExcluded_iff]
  simp only [same]

/-- Excludes that do not compile match nothing. -/
theorem isExcluded_filter_isValid (excludes : List String) (path : Path) :
    isExcluded (excludes.filter Glob.isValid) path = isExcluded excludes path := by
  rw [Bool.eq_iff_iff, isExcluded, isExcluded, Glob.matchesAny_iff, Glob.matchesAny_iff]
  constructor
  · rintro ⟨p, member, matched⟩
    exact ⟨p, (List.mem_filter.mp member).1, matched⟩
  · rintro ⟨p, member, tokens, compiled, matched⟩
    have valid : Glob.isValid p = true := by rw [Glob.isValid, compiled, Except.toBool]
    exact ⟨p, List.mem_filter.mpr ⟨member, valid⟩, tokens, compiled, matched⟩

/-! ## Discovery -/

theorem discover_congr (same : ∀ path, isExcluded excludes path = isExcluded others path) :
    discover tree root excludes = discover tree root others := by
  simp only [discover, same]

/-- More excludes take what they match out of what is left. -/
theorem discover_append (tree : FileTree) (root : Path) (excludes others : List String) :
    discover tree root (excludes ++ others) =
      (discover tree root excludes).map (·.filter fun path => !isExcluded others path) := by
  rw [discover, discover]
  cases Glob.expand tree (sourcePattern root) with
  | error e => rfl
  | ok all =>
      refine congrArg Except.ok ?_
      dsimp only
      rw [List.filter_filter]
      refine List.filter_congr fun path _ => ?_
      rw [isExcluded_append, Bool.not_or, Bool.and_comm]

end SourceLint
