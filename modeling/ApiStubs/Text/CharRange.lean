-- SUMMARY: Ranges of code points, the form in which character properties are tabulated.

/-!
# Ranges of characters

A property of characters is tabulated as the ranges of code points that have it.
-/

namespace ApiStubs.Text

/-- The code points from the first number to the second, both included. -/
abbrev CharRange := Nat × Nat

namespace CharRange

/-- Whether one of the ranges holds the code point. -/
def covers (ranges : List CharRange) (n : Nat) : Bool :=
  ranges.any fun r => r.1 ≤ n && n ≤ r.2

theorem covers_iff {ranges : List CharRange} {n : Nat} :
    covers ranges n = true ↔ ∃ r ∈ ranges, r.1 ≤ n ∧ n ≤ r.2 := by
  simp [covers]

end CharRange

end ApiStubs.Text
