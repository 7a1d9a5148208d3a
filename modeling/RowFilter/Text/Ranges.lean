/-!
Sets of characters as lists of code point ranges. A property of characters that a standard fixes
by enumeration is stored as such a list, and `Ranges.contains` asks whether a character is in it.
-/

namespace RowFilter.Text

/-- Inclusive ranges of code points. -/
abbrev Ranges := List (Nat × Nat)

def Ranges.contains (ranges : Ranges) (c : Char) : Bool :=
  ranges.any fun (first, last) => first ≤ c.toNat && c.toNat ≤ last

end RowFilter.Text
