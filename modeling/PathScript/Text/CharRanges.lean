/-!
# Sets of Characters

A set of characters given by ranges of code points, the form in which
character properties are tabulated.

## Main definitions

* `CharRanges`: A set of characters.
* `CharRanges.contains`: Membership.
-/

namespace PathScript

/-- A set of characters: ranges of code points, both ends included. -/
abbrev CharRanges := List (Nat × Nat)

/-- Whether a character lies in one of the ranges. -/
def CharRanges.contains (ranges : CharRanges) (c : Char) : Bool :=
  ranges.any fun range => range.1 ≤ c.toNat && c.toNat ≤ range.2

end PathScript
