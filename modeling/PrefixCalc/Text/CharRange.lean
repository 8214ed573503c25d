/-!
# Sets of characters given by ranges

A Unicode property is written as a list of inclusive code-point ranges.  The list is searched from
the front; nothing here asks it to be sorted or free of overlaps.
-/

namespace PrefixCalc
namespace Text

/-- Whether some range of the list holds the code point, both ends included. -/
def inRanges (ranges : List (Nat × Nat)) (code : Nat) : Bool :=
  ranges.any fun range => decide (range.1 ≤ code) && decide (code ≤ range.2)

/-- Membership is membership in one of the ranges. -/
theorem inRanges_iff {ranges : List (Nat × Nat)} {code : Nat} :
    inRanges ranges code = true ↔ ∃ range ∈ ranges, range.1 ≤ code ∧ code ≤ range.2 := by
  simp [inRanges]

end Text
end PrefixCalc
