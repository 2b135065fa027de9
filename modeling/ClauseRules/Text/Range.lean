/-! Sets of characters given as a list of code point ranges. -/

namespace ClauseRules.Text

/-- Whether the code point of `c` lies in one of the ranges, ends included. -/
def inRanges (ranges : List (Nat × Nat)) (c : Char) : Bool :=
  ranges.any fun range => range.1 ≤ c.toNat && c.toNat ≤ range.2

end ClauseRules.Text
