/-!
Sets of characters given by ranges of code points, the form in which the tables of
character properties are written.
-/

namespace CrossShade.Text

/-- Ranges of code points, both ends included. -/
abbrev Ranges := List (Nat × Nat)

/-- Whether the code point lies in one of the ranges. -/
def Ranges.has (ranges : Ranges) (code : Nat) : Bool :=
  ranges.any fun range => decide (range.1 ≤ code) && decide (code ≤ range.2)

end CrossShade.Text
