/-! Sets of code points, written as ascending closed ranges. -/

namespace PersonRegistry.Text

/-- Closed ranges of code points, ascending and apart from each other. -/
abbrev CodeRanges := List (Nat × Nat)

/-- A code point lies in one of the ranges; the search stops at the first range beyond it. -/
def CodeRanges.contains : CodeRanges → Nat → Bool
  | [], _ => false
  | (low, high) :: rest, code =>
      if code < low then false
      else if code ≤ high then true
      else CodeRanges.contains rest code

end PersonRegistry.Text
