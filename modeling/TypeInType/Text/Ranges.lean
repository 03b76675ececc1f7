/-!
Sets of code points as rising lists of closed ranges.
-/

namespace TypeInType

/-- Is the code point in one of the ranges? The search ends at the first range
that lies above it. -/
def inRanges : List (Nat × Nat) → Nat → Bool
  | [], _ => false
  | (first, last) :: rest, code =>
      if code < first then false
      else if code ≤ last then true
      else inRanges rest code

end TypeInType
