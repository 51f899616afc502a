/-!
# Sets of characters as ranges of code points

A character property of the Unicode standard is kept as a list of closed ranges. The ranges
below come from version 14 of the standard; surrogate code points belong to no set, since they are
no characters.
-/

namespace Brushwork.Text

/-- Closed ranges of code points, first and last included. -/
structure CharSet where
  ranges : List (Nat × Nat)

namespace CharSet

def contains (s : CharSet) (c : Char) : Bool :=
  s.ranges.any fun r => r.1 ≤ c.toNat && c.toNat ≤ r.2

end CharSet

end Brushwork.Text
