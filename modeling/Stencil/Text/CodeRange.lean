/-!
Sets of characters given as ranges of code points.

A property of the Unicode standard is a set of code points, and such a set is written down as the
list of its maximal runs.  This module holds that representation and its one question, membership;
the tables of single properties are in the modules beside it.
-/

namespace Stencil.Text

/-- A set of characters: runs of code points, both ends included. -/
abbrev CodeRanges := List (Nat × Nat)

/-- Whether one of the runs holds the character. -/
def CodeRanges.has (ranges : CodeRanges) (c : Char) : Bool :=
  ranges.any fun (low, high) => low ≤ c.toNat && c.toNat ≤ high

theorem CodeRanges.has_iff (ranges : CodeRanges) (c : Char) :
    ranges.has c = true ↔ ∃ r ∈ ranges, r.1 ≤ c.toNat ∧ c.toNat ≤ r.2 := by
  simp [CodeRanges.has, List.any_eq_true]

end Stencil.Text
