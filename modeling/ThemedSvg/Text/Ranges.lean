/-
# Sets of characters by code point ranges

Unicode properties are tables of inclusive ranges of code points.
-/

namespace ThemedSvg.Text

/-- Whether a code point lies in one of the ranges. -/
def inRanges (ranges : List (Nat × Nat)) (c : Char) : Bool :=
  ranges.any fun (low, high) => low ≤ c.toNat && c.toNat ≤ high

end ThemedSvg.Text
