import PathScript.Number.Decimal

/-!
# The Shortest Decimal That Reads Back

A binary number is written with the fewest significant digits that still
identify it: the decimal whose nearest binary number is the one we started
from. Among decimals of that length the nearest one is taken.

The search is by trial. The exact expansion of a finite number has hundreds
of digits; its first `n` digits, and the same plus one in the last place, are
the number's two neighbours among the decimals of `n` digits. If any decimal
of that length reads back, one of these two does, because the decimals that
read back form an interval around the number. Seventeen digits always
suffice, so the search stops there; the exact expansion stands behind it, and
with it every answer reads back by construction.

## Main definitions

* `Binary64.expansion`: The exact decimal coefficient of a finite number.
* `Binary64.neighbour?`: The decimal of a given length that reads back.
* `Binary64.toDecimal`: The shortest decimal that reads back.
-/

namespace PathScript

namespace Binary64

/-- A count of quanta as a decimal coefficient at exponent `-1074`. -/
def expansion (quanta : Nat) : Nat := quanta * Nat.pow 5 1074

/-- The decimal of `length` digits that reads back as the number at
    `position`, if there is one: the nearer of the two neighbours if both do,
    and of two equally near the one with the even last digit. The expansion's
    coefficient and its number of digits are passed in, since every length
    tried needs them. -/
def neighbour? (position coefficient digits length : Nat) : Option Decimal :=
  let dropped := digits - length
  let unit := tenTo dropped
  let exponent : Int := (dropped : Int) - 1074
  let below := coefficient / unit
  let above := below + 1
  let readsBack (c : Nat) : Bool :=
    match (Decimal.finite false c exponent).toBinary64 with
    | .finite _ p => p.val == position
    | _ => false
  let chosen (c : Nat) : Decimal :=
    if c = tenTo length then .finite false 1 (exponent + length)
    else .finite false c exponent
  if readsBack below then
    if readsBack above then some (chosen (roundHalfEven coefficient unit))
    else some (chosen below)
  else if readsBack above then some (chosen above)
  else none

/-- The number of digits that always suffice to identify a number. -/
def sufficientDigits : Nat := 17

/-- The shortest decimal that reads back as the magnitude at `position`. -/
def shortest (position : Nat) : Decimal :=
  let coefficient := expansion (quantaAt position)
  let digits := digitCount coefficient
  let lengths := (List.range sufficientDigits).map (· + 1)
  (lengths.findSome? (neighbour? position coefficient digits)).getD
    (.finite false coefficient (-1074))

/-- The shortest decimal that reads back as the number. -/
def toDecimal : Binary64 → Decimal
  | .finite negative position =>
      if position.val = 0 then .finite negative 0 0
      else
        match shortest position.val with
        | .finite _ c e => .finite negative c e
        | d => d
  | .infinite negative => .infinite negative
  | .nan => .nan

end Binary64

end PathScript
