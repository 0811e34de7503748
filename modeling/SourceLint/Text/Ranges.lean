/-! # Ranges of characters

A property of characters is given as the ranges of code points that have it, in
increasing order and with both ends included.
-/

namespace SourceLint.Text

/-- Some range holds the character. -/
def inRanges (ranges : List (Nat × Nat)) (c : Char) : Bool :=
  ranges.any fun (low, high) => low ≤ c.toNat && c.toNat ≤ high

end SourceLint.Text
