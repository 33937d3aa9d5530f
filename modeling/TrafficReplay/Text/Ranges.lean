/-
# Ranges of characters

A class of characters is a list of ranges of code points, ascending and apart from each other, as
tables of properties of characters are printed (`isAscending`). A character is in the class if its
code point is in one of the ranges (`contains`).
-/
namespace TrafficReplay.Text

/-- First and last code point of each range, in ascending order. -/
abbrev Ranges := List (Nat × Nat)

namespace Ranges

def contains (ranges : Ranges) (c : Char) : Bool :=
  ranges.any fun range => range.1 ≤ c.toNat && c.toNat ≤ range.2

/-- Whether no range is empty, and each lies above the one before it. -/
def isAscending : Ranges → Bool
  | [] => true
  | [range] => range.1 ≤ range.2
  | range :: next :: rest => range.1 ≤ range.2 && range.2 < next.1 && isAscending (next :: rest)

end Ranges

end TrafficReplay.Text
