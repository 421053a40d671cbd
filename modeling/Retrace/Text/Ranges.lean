/-!
# Retrace — sets of characters

A property of characters is given as the ranges of the code points that have
it, both ends included.
-/

namespace Retrace.Text

/-- The first and the last code point of each range. -/
abbrev Ranges := List (Nat × Nat)

/-- Whether the character lies in one of the ranges. -/
def Ranges.covers (ranges : Ranges) (c : Char) : Bool :=
  ranges.any fun range => range.1 ≤ c.toNat && c.toNat ≤ range.2

end Retrace.Text
