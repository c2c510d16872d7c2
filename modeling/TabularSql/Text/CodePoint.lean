/-!
# Sets of code points

A character property is kept as an ascending list of closed code point ranges. Long lists are written by the
lengths of the runs with and without the property.
-/

namespace TabularSql.Text

set_option autoImplicit false

/-- Closed ranges of code points, ascending and apart from each other. -/
abbrev CodeRanges := List (Nat × Nat)

/-- The ranges behind a code point. Each run says how many code points are skipped before the first one of a
range, and how many follow it in the range. -/
def CodeRanges.ofRuns (start : Nat) : List (Nat × Nat) → CodeRanges
  | [] => []
  | (skipped, following) :: runs =>
      let low := start + skipped
      let high := low + following
      (low, high) :: ofRuns (high + 1) runs

def CodeRanges.has (ranges : CodeRanges) (char : Char) : Bool :=
  ranges.any fun (low, high) => low ≤ char.toNat && char.toNat ≤ high

end TabularSql.Text
