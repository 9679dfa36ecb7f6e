/-!
# BuildQuery — sets of characters

A property of characters is a list of closed ranges of code points. The tables of the properties
that the program asks about are in the sibling modules.
-/

namespace BuildQuery.Text

/-- A set of characters, as closed ranges of code points. -/
abbrev CharRanges := List (Nat × Nat)

/-- A character is in the set when one of the ranges holds its code point. -/
def CharRanges.has (ranges : CharRanges) (c : Char) : Bool :=
  ranges.any fun range => range.1 ≤ c.toNat && c.toNat ≤ range.2

/-- A character of a set stands in one of its ranges. -/
theorem CharRanges.has_iff {ranges : CharRanges} {c : Char} :
    ranges.has c = true ↔ ∃ range ∈ ranges, range.1 ≤ c.toNat ∧ c.toNat ≤ range.2 := by
  simp [CharRanges.has]

end BuildQuery.Text
