import PathScript.Proofs.SingleRounding

/-!
# The Largest Numbers

Where the finite numbers end. A magnitude is nearest to a finite number just in case
it is below the point half way between the largest finite number and the one that
would come next. The half way point itself goes to the even side, which is infinity.

A coordinate is rounded twice, first to the decimal digits that are kept and then to a
binary number. The largest finite number has more digits than are kept, and its own
decimal rounding is above the half way point. So the first rounding takes numbers out
of range that the second would not.

## Main definitions

* `Binary64.overflowsAt`: The least magnitude that goes to infinity.
* `Matrix.overflowsAt`: The least magnitude that does so when its digits are cut first.

## Theorems

* `Binary64.positionOf_lt_iff`: Which magnitudes have a finite number nearest to them.
* `Matrix.roundSignificant_lt_iff`: Which do when their digits are cut first.
* `Matrix.isFinite_settle`: Which decimals become finite coordinates.
-/

namespace PathScript

theorem twoTo_cast (n : ℕ) : (twoTo n : ℚ) = 2 ^ n := by
  change ((2 ^ n : ℕ) : ℚ) = 2 ^ n
  push_cast
  rfl

namespace Binary64

theorem isFinite_atPosition {negative : Bool} {position : Nat} :
    (atPosition negative position).isFinite = true ↔ position < finiteMagnitudes := by
  unfold atPosition
  split
  · next hlt => exact iff_of_true rfl hlt
  · next hle => exact iff_of_false Bool.false_ne_true hle

/-- The least magnitude that is nearest to no finite number: half way between the largest
    of them and the next power of two. -/
def overflowsAt : ℚ := (2 ^ 54 - 1) * 2 ^ 970

theorem overflowsAt_eq : overflowsAt = ((twoTo 54 - 1) * twoTo 970 : ℕ) := by
  rw [Nat.cast_mul, Nat.cast_sub (twoTo_pos 54), twoTo_cast, twoTo_cast, Nat.cast_one]
  rfl

theorem midpoint_finiteMagnitudes :
    magnitudeAt (finiteMagnitudes - 1) + magnitudeAt finiteMagnitudes = 2 * overflowsAt := by
  have hquanta : quantaAt (finiteMagnitudes - 1) + quantaAt finiteMagnitudes
      = 2 * ((twoTo 54 - 1) * twoTo 970) * quantaPerOne := by decide +kernel
  rw [magnitudeAt, magnitudeAt, ← add_div, div_eq_iff (ne_of_gt quantaPerOne_pos), overflowsAt_eq]
  exact_mod_cast hquanta

/-- The half way point goes beyond the finite positions. -/
theorem le_positionOf_overflowsAt : finiteMagnitudes ≤ positionOf overflowsAt := by
  have hbound : finiteMagnitudes
      ≤ nearestPosition ((twoTo 54 - 1) * twoTo 970 * quantaPerOne) 1 := by decide +kernel
  have habs : |overflowsAt| = ((twoTo 54 - 1) * twoTo 970 : ℕ) / (1 : ℕ) := by
    rw [overflowsAt_eq, Nat.abs_cast, Nat.cast_one, div_one]
  rwa [← positionOf_eq Nat.one_pos habs] at hbound

/-- The magnitudes with a finite number nearest to them. -/
theorem positionOf_lt_iff {v : ℚ} : positionOf v < finiteMagnitudes ↔ |v| < overflowsAt := by
  constructor
  · intro h
    by_contra hle
    have hmono : positionOf overflowsAt ≤ positionOf v := by
      refine positionOf_mono ?_
      rw [overflowsAt_eq, Nat.abs_cast, ← overflowsAt_eq]
      exact not_lt.mp hle
    have hbound := le_positionOf_overflowsAt
    omega
  · intro h
    by_contra hle
    -- Beyond the finite positions the number would be past the half way point.
    have hposition : positionOf v = positionOf v - 1 + 1 := by
      have hpos : 0 < finiteMagnitudes := by decide +kernel
      omega
    have hmidpoint := midpoint_le_of_positionOf hposition
    have hfirst := magnitudeAt_le (show finiteMagnitudes - 1 ≤ positionOf v - 1 by omega)
    have hsecond := magnitudeAt_le (show finiteMagnitudes ≤ positionOf v - 1 + 1 by omega)
    have htotal := midpoint_finiteMagnitudes
    linarith

theorem isFinite_ofRat {v : ℚ} : (ofRat v).isFinite = true ↔ |v| < overflowsAt :=
  isFinite_atPosition.trans positionOf_lt_iff

end Binary64

/-- Rounding does not go past an integer from above. -/
theorem le_nearestInteger {n : ℤ} {v : ℚ} (h : n ≤ v) : n ≤ nearestInteger v := by
  have hnear := (abs_le.mp (abs_sub_nearestInteger_le v)).2
  have hlt : (n : ℚ) < nearestInteger v + 1 := by linarith
  exact Int.lt_add_one_iff.mp (by exact_mod_cast hlt)

/-- Nor from below. -/
theorem nearestInteger_le {n : ℤ} {v : ℚ} (h : v ≤ n) : nearestInteger v ≤ n := by
  have hnear := (abs_le.mp (abs_sub_nearestInteger_le v)).1
  have hlt : (nearestInteger v : ℚ) < n + 1 := by linarith
  exact Int.lt_add_one_iff.mp (by exact_mod_cast hlt)

/-- Half way after an odd integer is where numbers begin to go to the next. -/
theorem lt_nearestInteger_iff {n : ℤ} (hodd : n % 2 = 1) {v : ℚ} :
    n < nearestInteger v ↔ n + 1 / 2 ≤ v := by
  have hnear := abs_le.mp (abs_sub_nearestInteger_le v)
  constructor
  · intro h
    have hcast : (n : ℚ) + 1 ≤ nearestInteger v := by exact_mod_cast h
    linarith
  · intro h
    have hle : n ≤ nearestInteger v := le_nearestInteger (by linarith)
    refine lt_of_le_of_ne hle fun heq => ?_
    -- At the odd integer the number would be half way, and go to an even one.
    rw [← heq] at hnear
    have hhalf : v - n = 1 / 2 := by linarith
    rcases nearestInteger_spec v with hlt | ⟨_, heven⟩
    · rw [← heq, hhalf] at hlt
      norm_num at hlt
    · omega

theorem abs_roundSignificant (digits : ℕ) (v : ℚ) :
    |roundSignificant digits v| = roundSignificant digits |v| := by
  have hnonneg : ∀ w : ℚ, 0 ≤ w → 0 ≤ roundSignificant digits w := by
    intro w hw
    have hquotient : ((0 : ℤ) : ℚ) ≤ w / 10 ^ (Int.log 10 |w| + 1 - digits) := by
      rw [Int.cast_zero]
      exact div_nonneg hw (ten_zpow_pos _).le
    exact mul_nonneg (Int.cast_nonneg (le_nearestInteger hquotient)) (ten_zpow_pos _).le
  rcases le_total 0 v with hv | hv
  · rw [abs_of_nonneg hv, abs_of_nonneg (hnonneg v hv)]
  · rw [abs_of_nonpos hv, roundSignificant_neg, abs_of_nonpos]
    have hneg := hnonneg (-v) (neg_nonneg.mpr hv)
    rw [roundSignificant_neg] at hneg
    exact neg_nonneg.mp hneg

/-- Rounding does not go past the power of ten above a number. -/
theorem roundSignificant_le (digits : ℕ) {v : ℚ} (hv : 0 ≤ v) :
    roundSignificant digits v ≤ 10 ^ (Int.log 10 v + 1) := by
  have hpower : (10 : ℚ) ^ (Int.log 10 v + 1)
      = ((10 ^ digits : ℤ) : ℚ) * 10 ^ (Int.log 10 v + 1 - digits) := by
    rw [zpow_sub₀ (by norm_num), zpow_natCast]
    push_cast
    field_simp
  rw [roundSignificant, abs_of_nonneg hv, hpower]
  refine mul_le_mul_of_nonneg_right (Int.cast_le.mpr (nearestInteger_le ?_)) (ten_zpow_pos _).le
  rw [div_le_iff₀ (ten_zpow_pos _), ← hpower]
  exact (lt_zpow_log v).le

/-- Nor past the one below it. -/
theorem le_roundSignificant {digits : ℕ} (hdigits : 0 < digits) {v : ℚ} (hv : 0 < v) :
    10 ^ Int.log 10 v ≤ roundSignificant digits v := by
  have hpower : (10 : ℚ) ^ Int.log 10 v
      = ((10 ^ (digits - 1) : ℤ) : ℚ) * 10 ^ (Int.log 10 v + 1 - digits) := by
    push_cast
    rw [← zpow_natCast, ← zpow_add₀ (by norm_num)]
    congr 1
    omega
  rw [roundSignificant, abs_of_pos hv, hpower]
  refine mul_le_mul_of_nonneg_right (Int.cast_le.mpr (le_nearestInteger ?_)) (ten_zpow_pos _).le
  rw [le_div_iff₀ (ten_zpow_pos _), ← hpower]
  exact zpow_log_le hv

namespace Matrix

/-- The least magnitude that goes to infinity if it is first cut to the digits that are
    kept: half way between two decimals of so many digits, of which the lower one is in
    range and the upper one is not. -/
def overflowsAt : ℚ := 1797693134862315 * 10 ^ 293

/-- The decimals of fifteen digits on either side of the half way point. -/
theorem lt_overflowsAt_le :
    (179769313486231 : ℚ) * 10 ^ (294 : ℤ) < Binary64.overflowsAt ∧
      Binary64.overflowsAt ≤ 179769313486232 * 10 ^ (294 : ℤ) := by
  have hlower : 179769313486231 * tenTo 294 < (twoTo 54 - 1) * twoTo 970 := by decide +kernel
  have hupper : (twoTo 54 - 1) * twoTo 970 ≤ 179769313486232 * tenTo 294 := by decide +kernel
  have hpower : (10 : ℚ) ^ (294 : ℤ) = tenTo 294 := by rw [tenTo_cast, zpow_ofNat]
  rw [hpower, Binary64.overflowsAt_eq]
  exact ⟨by exact_mod_cast hlower, by exact_mod_cast hupper⟩

theorem overflowsAt_eq : overflowsAt = (179769313486231 + 1 / 2) * 10 ^ (294 : ℤ) := by
  have hpower : (10 : ℚ) ^ (294 : ℤ) = 10 * 10 ^ 293 := by
    rw [show (294 : ℤ) = ((293 + 1 : ℕ) : ℤ) from rfl, zpow_natCast, pow_succ']
  rw [hpower, overflowsAt]
  generalize (10 : ℚ) ^ 293 = unit
  ring

/-- Cut to the digits that are kept, just the numbers below a half way point stay in
    range. The cases are by the power of ten below the number. -/
theorem roundSignificant_lt_iff {v : ℚ} (hv : 0 ≤ v) :
    roundSignificant keptDigits v < Binary64.overflowsAt ↔ v < overflowsAt := by
  rcases lt_overflowsAt_le with ⟨hlower, hupper⟩
  have hexact := overflowsAt_eq
  have hunit := ten_zpow_pos 294
  have hpower : ∀ k : ℕ, (10 : ℚ) ^ (294 + k : ℤ) = 10 ^ k * 10 ^ (294 : ℤ) := by
    intro k
    rw [zpow_add₀ (by norm_num), zpow_natCast, mul_comm]
  rcases lt_trichotomy (Int.log 10 v) 308 with hsmall | hmiddle | hlarge
  · -- Below the power of ten nothing is out of range.
    have hle : (10 : ℚ) ^ (Int.log 10 v + 1) ≤ 10 ^ (294 + (14 : ℕ) : ℤ) :=
      zpow_le_zpow_right₀ (by norm_num) (by omega)
    rw [hpower 14] at hle
    have hround := roundSignificant_le keptDigits hv
    have hbelow := lt_zpow_log v
    generalize (10 : ℚ) ^ (294 : ℤ) = unit at *
    exact iff_of_true (by linarith) (by linarith)
  · have hexponent : (308 : ℤ) + 1 - keptDigits = 294 := rfl
    rw [roundSignificant, abs_of_nonneg hv, hmiddle, hexponent]
    have hhalf := lt_nearestInteger_iff (n := 179769313486231) (by decide)
      (v := v / 10 ^ (294 : ℤ))
    rw [le_div_iff₀ hunit, Int.cast_ofNat, ← hexact] at hhalf
    rw [← not_iff_not, not_lt, not_lt, ← hhalf]
    constructor
    · intro hle
      have hlt : (179769313486231 : ℚ) < nearestInteger (v / 10 ^ (294 : ℤ)) :=
        lt_of_mul_lt_mul_right (hlower.trans_le hle) hunit.le
      exact_mod_cast hlt
    · intro hlt
      have hcast : (179769313486232 : ℚ) ≤ nearestInteger (v / 10 ^ (294 : ℤ)) := by
        exact_mod_cast hlt
      exact hupper.trans (mul_le_mul_of_nonneg_right hcast hunit.le)
  · -- Above the next power of ten everything is.
    have hpos : 0 < v := by
      refine lt_of_le_of_ne hv fun hzero => ?_
      rw [← hzero, Int.log_zero_right] at hlarge
      omega
    have hle : (10 : ℚ) ^ (294 + (15 : ℕ) : ℤ) ≤ 10 ^ Int.log 10 v :=
      zpow_le_zpow_right₀ (by norm_num) (by omega)
    rw [hpower 15] at hle
    have hround := le_roundSignificant (show 0 < keptDigits by decide) hpos
    have habove := zpow_log_le hpos
    generalize (10 : ℚ) ^ (294 : ℤ) = unit at *
    exact iff_of_false (by linarith) (by linarith)

/-- The decimals that become finite coordinates. -/
theorem isFinite_settle {d : Decimal} (hd : d.isFinite = true) :
    (settle d).isFinite = true ↔ |d.value| < overflowsAt := by
  rw [settle_eq hd, Binary64.isFinite_ofRat, abs_roundSignificant,
    roundSignificant_lt_iff (abs_nonneg _)]

end Matrix

end PathScript
