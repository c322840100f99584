import PathScript.Number.Binary64

/-!
# Decimal Numbers

Signed decimal numbers `± c * 10 ^ e` with infinities and a quiet
not-a-number. Coordinates are mapped in decimal arithmetic, so that a program
written in decimal fractions keeps the coordinates a reader would compute by
hand.

Sums and products are exact and are then cut to a stated number of
significant digits, half way cases going to the even digit. Two operations
have no result at all, infinity times zero and the sum of opposite
infinities, and they answer `none` instead of a number.

A decimal is not kept in lowest terms: `10 * 10 ^ 0` and `1 * 10 ^ 1` are
different terms with one value. Nothing here looks at the exponent alone, so
the difference never shows.

## Main definitions

* `Decimal`: The numbers themselves.
* `Decimal.round`: Cutting to a number of significant digits.
* `Decimal.add?`, `Decimal.mul?`: Arithmetic at a precision.
* `Decimal.plus`: Rounding that drops the sign of zero.
* `Decimal.toBinary64`: The nearest binary number.
-/

namespace PathScript

/-- A decimal number `± coefficient * 10 ^ exponent`, an infinity, or
    not-a-number. -/
inductive Decimal where
  | finite (negative : Bool) (coefficient : Nat) (exponent : Int)
  | infinite (negative : Bool)
  | nan
  deriving DecidableEq

namespace Decimal

/-- The number cut to at most `digits` significant digits, to the nearest and
    half way cases to the even digit. -/
def round (digits : Nat) : Decimal → Decimal
  | .finite negative coefficient exponent =>
      let excess := digitCount coefficient - digits
      .finite negative (roundHalfEven coefficient (tenTo excess)) (exponent + excess)
  | x => x

/-- The exact sum of two finite numbers, taken at the smaller exponent. An
    exact zero is negative only if both terms are. -/
def exactSum (s : Bool) (c : Nat) (e : Int) (t : Bool) (d : Nat) (f : Int) : Decimal :=
  let base := min e f
  let left := signed s (c * tenTo (e - base).toNat)
  let right := signed t (d * tenTo (f - base).toNat)
  let total := left + right
  let negative := if total = 0 then s && t else decide (total < 0)
  .finite negative total.natAbs base

/-- The sum at a precision, undefined for opposite infinities. -/
def add? (digits : Nat) : Decimal → Decimal → Option Decimal
  | .nan, _ => some .nan
  | _, .nan => some .nan
  | .infinite s, .infinite t => if s = t then some (.infinite s) else none
  | .infinite s, .finite _ _ _ => some (.infinite s)
  | .finite _ _ _, .infinite t => some (.infinite t)
  | .finite s c e, .finite t d f => some ((exactSum s c e t d f).round digits)

/-- The product at a precision, undefined for infinity times zero. -/
def mul? (digits : Nat) : Decimal → Decimal → Option Decimal
  | .nan, _ => some .nan
  | _, .nan => some .nan
  | .infinite s, .infinite t => some (.infinite (s != t))
  | .infinite s, .finite t d _ => if d = 0 then none else some (.infinite (s != t))
  | .finite s c _, .infinite t => if c = 0 then none else some (.infinite (s != t))
  | .finite s c e, .finite t d f => some ((finite (s != t) (c * d) (e + f)).round digits)

/-- The number cut to `digits` significant digits, with zero made
    positive. -/
def plus (digits : Nat) : Decimal → Decimal
  | .finite negative coefficient exponent =>
      (finite (negative && coefficient != 0) coefficient exponent).round digits
  | x => x

/-- Every decimal of at least this order of magnitude is beyond the finite
    binary numbers. -/
def tooLarge : Int := 310

/-- Every decimal below this order of magnitude is nearer to zero than to any
    other binary number. -/
def tooSmall : Int := -330

/-- The binary number nearest to a decimal. Orders of magnitude outside the
    binary range are settled first, so that an exponent written with many
    digits costs nothing. -/
def toBinary64 : Decimal → Binary64
  | .finite negative coefficient exponent =>
      let order := exponent + digitCount coefficient
      if coefficient = 0 then .zero negative
      else if tooLarge < order then .infinite negative
      else if order < tooSmall then .zero negative
      else
        .ofRatio negative
          (coefficient * tenTo exponent.toNat * Binary64.quantaPerOne)
          (tenTo (-exponent).toNat)
  | .infinite negative => .infinite negative
  | .nan => .nan

end Decimal

end PathScript
