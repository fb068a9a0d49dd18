/-!
# Tables of character ranges

A class of characters given by the inclusive ranges of its code points.

## Main definitions

* `Montage.Text.RangeTable`: such a table.
* `RangeTable.contains`: membership.
-/

namespace Montage.Text

/-- Inclusive ranges of code points. -/
abbrev RangeTable := List (Nat × Nat)

namespace RangeTable

/-- The range that holds `c`. -/
def rangeOf? (t : RangeTable) (c : Char) : Option (Nat × Nat) :=
  t.find? fun r => r.1 ≤ c.toNat && c.toNat ≤ r.2

/-- `c` lies in one of the ranges. -/
def contains (t : RangeTable) (c : Char) : Bool :=
  t.any fun r => r.1 ≤ c.toNat && c.toNat ≤ r.2

end RangeTable

end Montage.Text
