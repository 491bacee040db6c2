/-!
# Classes of characters given by ranges

A class of characters that a standard defines by enumeration is kept as a list of ranges of code
points. Membership is a single pass over the ranges; `inRanges_iff` reads it as a statement about
the code point.
-/

namespace DumpMode.Text

/-- Whether the code point of `c` lies in one of `ranges`, both ends of a range included. -/
def inRanges (ranges : List (Nat × Nat)) (c : Char) : Bool :=
  ranges.any fun (low, high) ↦ low ≤ c.toNat && c.toNat ≤ high

theorem inRanges_iff {ranges : List (Nat × Nat)} {c : Char} :
    inRanges ranges c = true ↔ ∃ r ∈ ranges, r.1 ≤ c.toNat ∧ c.toNat ≤ r.2 := by
  simp [inRanges]

end DumpMode.Text
