/-!
# BlockGrid.Text.Ranges

Sets of characters given as inclusive ranges of code points.
-/

namespace BlockGrid

namespace Text

abbrev Ranges := Array (Nat × Nat)

def Ranges.has (t : Ranges) (c : Char) : Bool :=
  t.any fun r => r.1 ≤ c.toNat && c.toNat ≤ r.2

end Text

end BlockGrid
