/-!
# Sets of characters given as ranges

A character class of a standard is a list of inclusive ranges of code points. `CodeRanges.contains`
is membership; the lists themselves live in the modules named for the class.
-/

namespace Peg.Text

abbrev CodeRanges := List (Nat × Nat)

def CodeRanges.contains (ranges : CodeRanges) (c : Char) : Bool :=
  ranges.any fun range => decide (range.1 ≤ c.toNat) && decide (c.toNat ≤ range.2)

@[simp] theorem CodeRanges.contains_iff {ranges : CodeRanges} {c : Char} :
    ranges.contains c = true ↔ ∃ range ∈ ranges, range.1 ≤ c.toNat ∧ c.toNat ≤ range.2 := by
  simp [CodeRanges.contains]

end Peg.Text
