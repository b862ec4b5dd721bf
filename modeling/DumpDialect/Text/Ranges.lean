/-!
# Ranges of code points

A character class beyond ASCII is a list of closed ranges of code points. The lists ascend, so a
look-up stops at the first range that begins above the code point.
-/

namespace DumpDialect

/-- Whether `n` lies in one of the ranges, each given by its first and its last member. The ranges
ascend. -/
def inRanges : List (Nat × Nat) → Nat → Bool
  | [], _ => false
  | (first, last) :: more, n =>
    if n < first then false else if n ≤ last then true else inRanges more n

end DumpDialect
