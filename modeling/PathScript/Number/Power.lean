/-!
# Powers of Two and Ten

Binary numbers are spaced by powers of two and decimal ones by powers of ten.
Both have a name here, since a scale is computed far more often than it is
written out.

## Main definitions

* `twoTo`: A power of two.
* `tenTo`: A power of ten.

## Theorems

* `twoTo_succ`, `tenTo_succ`: The next power.
* `twoTo_pos`, `tenTo_pos`: A scale is never zero.
-/

namespace PathScript

/-- Two to an exponent. -/
def twoTo (exponent : Nat) : Nat := Nat.pow 2 exponent

/-- Ten to an exponent. -/
def tenTo (exponent : Nat) : Nat := Nat.pow 10 exponent

/-- The next power of two is twice as large. -/
theorem twoTo_succ (exponent : Nat) : twoTo (exponent + 1) = twoTo exponent * 2 := rfl

/-- The next power of ten is ten times as large. -/
theorem tenTo_succ (exponent : Nat) : tenTo (exponent + 1) = tenTo exponent * 10 := rfl

/-- A power of two is not zero. -/
theorem twoTo_pos (exponent : Nat) : 0 < twoTo exponent := by
  induction exponent with
  | zero => exact Nat.one_pos
  | succ exponent ih =>
      rw [twoTo_succ]
      omega

/-- A power of ten is not zero. -/
theorem tenTo_pos (exponent : Nat) : 0 < tenTo exponent := by
  induction exponent with
  | zero => exact Nat.one_pos
  | succ exponent ih =>
      rw [tenTo_succ]
      omega

end PathScript
