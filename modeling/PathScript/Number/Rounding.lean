import PathScript.Number.Power

/-!
# Rounding Quotients and Counting Digits

The small pieces of integer arithmetic that every number of this library goes
through.

`roundHalfEven` is the only rounding there is: an exact quotient goes to the
nearest integer, and a quotient half way between two integers goes to the
even one. Binary numbers, decimal numbers and the change from one to the
other all reduce to it, each with a denominator of its own.

`digitCount` counts decimal digits. It takes them off in blocks, because the
exact decimal expansion of a small binary number runs to more than a thousand
digits and a count one by one would dominate the cost of printing.

`signed` joins a sign to a magnitude. Numbers here keep the two apart, since
zero has a sign of its own, and join them only where a sum is taken.

## Main definitions

* `signed`: An integer from its sign and magnitude.
* `roundHalfEven`: A quotient rounded to the nearest integer, ties to even.
* `digitCount`: The number of decimal digits of a natural number.

## Theorems

* `natAbs_signed`, `signed_natAbs`: Taking an integer apart and joining it again.
* `roundHalfEven_one`: An integer is its own rounding.
* `digitCount_pos`: Every number has at least one digit.
-/

namespace PathScript

/-- The integer with the given sign and magnitude. -/
def signed (negative : Bool) (magnitude : Nat) : Int :=
  if negative then -(magnitude : Int) else magnitude

theorem natAbs_signed (negative : Bool) (magnitude : Nat) :
    (signed negative magnitude).natAbs = magnitude := by
  cases negative with
  | false => exact Int.natAbs_natCast magnitude
  | true => exact (Int.natAbs_neg _).trans (Int.natAbs_natCast magnitude)

theorem signed_zero (negative : Bool) : signed negative 0 = 0 := by
  cases negative <;> rfl

theorem signed_mul (negative : Bool) (m n : Nat) :
    signed negative (m * n) = signed negative m * n := by
  cases negative with
  | false => exact Int.natCast_mul m n
  | true => exact (congrArg Neg.neg (Int.natCast_mul m n)).trans (Int.neg_mul _ _).symm

/-- An integer is joined from its own sign and magnitude; zero takes any sign. -/
theorem signed_natAbs {negative : Bool} {n : Int} (h : n ≠ 0 → (negative = true ↔ n < 0)) :
    signed negative n.natAbs = n := by
  by_cases hzero : n = 0
  · rw [hzero]
    exact signed_zero negative
  · have hsign := h hzero
    cases negative with
    | false =>
        simp only [signed, Bool.false_eq_true, if_false]
        simp only [Bool.false_eq_true, false_iff] at hsign
        omega
    | true =>
        simp only [signed, if_true]
        simp only [true_iff] at hsign
        omega

/-- The quotient `num / den` rounded to the nearest integer; a quotient half
    way between two integers goes to the even one. -/
def roundHalfEven (num den : Nat) : Nat :=
  let quotient := num / den
  let remainder := num % den
  if 2 * remainder < den then quotient
  else if den < 2 * remainder then quotient + 1
  else quotient + quotient % 2

/-- An integer is its own rounding. -/
@[simp]
theorem roundHalfEven_one (num : Nat) : roundHalfEven num 1 = num := by
  simp [roundHalfEven, Nat.mod_one]

/-- The number of digits taken off at a time by `digitCount`. -/
def digitBlock : Nat := 32

/-- The number of decimal digits of `n`; zero has one digit. -/
def digitCount (n : Nat) : Nat :=
  if n < 10 then 1
  else if n < tenTo digitBlock then digitCount (n / 10) + 1
  else digitCount (n / tenTo digitBlock) + digitBlock
termination_by n
decreasing_by
  · omega
  · have hpos : 0 < n := by omega
    exact Nat.div_lt_self hpos (by decide)

/-- Every number has at least one digit. -/
theorem digitCount_pos (n : Nat) : 0 < digitCount n := by
  rw [digitCount]
  split
  · exact Nat.one_pos
  · split
    · exact Nat.succ_pos _
    · exact Nat.lt_of_lt_of_le (by decide : 0 < digitBlock) (Nat.le_add_left _ _)

end PathScript
