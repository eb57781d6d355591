/-! # Sets of characters

A property of characters is given by the ranges of code points that have it, in ascending order, with
the first and the last code point of each range.
-/

namespace Sentential.Text

/-- Ranges of code points, each with its first and its last one. -/
abbrev CharRanges := List (Nat × Nat)

def CharRanges.contains (ranges : CharRanges) (c : Char) : Bool :=
  ranges.any fun range => range.1 ≤ c.toNat && c.toNat ≤ range.2

end Sentential.Text
