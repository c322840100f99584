import Mathlib.Data.Rat.Lemmas
import Mathlib.Algebra.Order.Field.Rat
import Mathlib.Algebra.Order.Field.Basic
import Mathlib.Tactic.FieldSimp
import Mathlib.Tactic.Linarith
import Mathlib.Tactic.Positivity
import PathScript.Proofs.ReadBack

/-!
# The Nearest Number

What rounding to a binary number comes to. The positions of magnitudes run
through them in increasing order, and the distance from one magnitude to the
next, the *step*, doubles from block to block. A ratio goes to the position
whose magnitude is nearest, so it lies between the two midpoints around that
magnitude. The two bounds are all that is needed later: that larger ratios go to
larger positions follows from them, and so does where a ratio goes that is close
to a magnitude.

The case to look at is a ratio at the bottom of a block, where the step below is
half of the step above. The position there is reached from above only, since
ratios below are rounded in steps of the block before.

## Main definitions

* `Binary64.stepAt`: The distance from a magnitude to the next, in quanta.
* `Binary64.Steps`: A ratio among the steps of one scale.
* `Binary64.magnitudeAt`, `Binary64.spacingAt`: Magnitudes and their distances, as
  rational numbers.
* `Binary64.positionOf`: The position nearest to a rational number.

## Theorems

* `Binary64.quantaAt_scaled`: The magnitude at a count of steps of one scale.
* `Binary64.quantaAt_succ`, `Binary64.quantaAt_le`: The next magnitude, and the
  order of magnitudes.
* `Binary64.midpoint_le_of_nearestPosition`,
  `Binary64.le_midpoint_nearestPosition`: A ratio lies between the midpoints
  around the magnitude it goes to.
* `Binary64.nearestPosition_mono`: Larger ratios go to larger positions.
* `Binary64.positionOf_eq_of_close`: A number close to a magnitude goes there.
-/

namespace PathScript

/-- A rounded quotient is at most half above the quotient. -/
theorem roundHalfEven_mul_le (num den : Nat) :
    2 * (roundHalfEven num den * den) ≤ 2 * num + den := by
  have hsplit := Nat.div_add_mod num den
  have hproduct := Nat.mul_comm den (num / den)
  simp only [roundHalfEven]
  split
  · omega
  · split
    · rw [Nat.add_mul, Nat.one_mul]
      omega
    · -- Half way the remainder is half of the denominator.
      have hparity : num / den % 2 = 0 ∨ num / den % 2 = 1 := by omega
      rcases hparity with heven | hodd
      · rw [heven, Nat.add_zero]
        omega
      · rw [hodd, Nat.add_mul, Nat.one_mul]
        omega

/-- It is at most half below it. -/
theorem le_roundHalfEven_mul {num den : Nat} (hden : 0 < den) :
    2 * num ≤ 2 * (roundHalfEven num den * den) + den := by
  have hsplit := Nat.div_add_mod num den
  have hproduct := Nat.mul_comm den (num / den)
  have hremainder := Nat.mod_lt num hden
  simp only [roundHalfEven]
  split
  · omega
  · split
    · rw [Nat.add_mul, Nat.one_mul]
      omega
    · rw [Nat.add_mul]
      omega

namespace Binary64

/-- The distance from a magnitude to the next, in quanta. -/
def stepAt (position : Nat) : Nat := twoTo (position / twoTo 52 - 1)

theorem stepAt_pos (position : Nat) : 0 < stepAt position := twoTo_pos _

/-- The magnitude at a count of steps of one scale. The count may have reached the
    next power of two. -/
theorem quantaAt_scaled {scale count : Nat} (hlow : scale = 0 ∨ twoTo 52 ≤ count)
    (hhigh : count ≤ twoTo 53) : quantaAt (scale * twoTo 52 + count) = count * twoTo scale := by
  have hblock := twoTo_pos 52
  have htop : twoTo 53 = twoTo 52 * 2 := twoTo_succ 52
  unfold quantaAt
  by_cases hsmall : scale * twoTo 52 + count < twoTo 52
  · -- Only the first block begins at zero.
    have hscale : scale = 0 := by
      rcases hlow with hzero | hlow
      · exact hzero
      · omega
    rw [if_pos hsmall, hscale, Nat.zero_mul, Nat.zero_add]
    exact (Nat.mul_one count).symm
  · rw [if_neg hsmall]
    by_cases hlast : count = twoTo 53
    · -- The count of the last step is the first of the next block.
      have hposition : scale * twoTo 52 + count = (scale + 2) * twoTo 52 := by
        rw [hlast, htop, Nat.add_mul]
        omega
      rw [hposition, Nat.mul_mod_left, Nat.mul_div_cancel _ hblock, hlast, htop, Nat.mul_assoc]
      congr 1
      rw [show scale + 2 - 1 = scale + 1 by omega, twoTo_succ, Nat.mul_comm]
    · have hcount : twoTo 52 ≤ count := by
        rcases hlow with hzero | hlow
        · rw [hzero] at hsmall
          omega
        · exact hlow
      have hposition : scale * twoTo 52 + count
          = count - twoTo 52 + (scale + 1) * twoTo 52 := by
        rw [Nat.add_mul]
        omega
      have hplace : count - twoTo 52 < twoTo 52 := by omega
      rw [hposition, Nat.add_mul_mod_self_right, Nat.mod_eq_of_lt hplace,
        Nat.add_mul_div_right _ _ hblock, Nat.div_eq_of_lt hplace]
      rw [show twoTo 52 + (count - twoTo 52) = count by omega,
        show 0 + (scale + 1) - 1 = scale by omega]

/-- Every position is a count of steps of one scale, which is not at its end. -/
theorem exists_scaled (position : Nat) :
    ∃ scale count, position = scale * twoTo 52 + count ∧ (scale = 0 ∨ twoTo 52 ≤ count) ∧
      count < twoTo 53 ∧ stepAt position = twoTo scale := by
  have htop : twoTo 53 = twoTo 52 * 2 := twoTo_succ 52
  by_cases hsmall : position < twoTo 52
  · refine ⟨0, position, by omega, Or.inl rfl, by omega, ?_⟩
    rw [stepAt, Nat.div_eq_of_lt hsmall]
  · have hplace := Nat.mod_lt position (twoTo_pos 52)
    have hsplit := Nat.div_add_mod position (twoTo 52)
    have hblock : 0 < position / twoTo 52 :=
      Nat.div_pos (Nat.le_of_not_lt hsmall) (twoTo_pos 52)
    refine ⟨position / twoTo 52 - 1, twoTo 52 + position % twoTo 52, ?_,
      Or.inr (Nat.le_add_right _ _), by omega, rfl⟩
    rw [Nat.mul_comm] at hsplit
    rw [Nat.sub_mul, Nat.one_mul]
    have hle : twoTo 52 ≤ position / twoTo 52 * twoTo 52 := Nat.le_mul_of_pos_left _ hblock
    omega

/-- The next magnitude is one step above. -/
theorem quantaAt_succ (position : Nat) :
    quantaAt (position + 1) = quantaAt position + stepAt position := by
  rcases exists_scaled position with ⟨scale, count, hposition, hlow, hhigh, hstep⟩
  have hnext : position + 1 = scale * twoTo 52 + (count + 1) := by omega
  have hlow' : scale = 0 ∨ twoTo 52 ≤ count + 1 := by omega
  rw [hnext, quantaAt_scaled hlow' hhigh, hstep, hposition,
    quantaAt_scaled hlow (Nat.le_of_lt hhigh), Nat.add_mul, Nat.one_mul]

/-- The next magnitude has at most two to the 53rd steps. -/
theorem quantaAt_succ_le (position : Nat) :
    quantaAt (position + 1) ≤ twoTo 53 * stepAt position := by
  rcases exists_scaled position with ⟨scale, count, hposition, hlow, hhigh, hstep⟩
  have hnext : position + 1 = scale * twoTo 52 + (count + 1) := by omega
  have hlow' : scale = 0 ∨ twoTo 52 ≤ count + 1 := by omega
  rw [hnext, quantaAt_scaled hlow' hhigh, hstep]
  exact Nat.mul_le_mul_right _ hhigh

/-- Magnitudes beyond the first block have at least two to the 52nd steps. -/
theorem le_quantaAt {position : Nat} (h : twoTo 52 ≤ position) :
    twoTo 52 * stepAt position ≤ quantaAt position := by
  rcases exists_scaled position with ⟨scale, count, hposition, hlow, hhigh, hstep⟩
  have hcount : twoTo 52 ≤ count := by
    rcases hlow with hzero | hlow
    · rw [hposition, hzero] at h
      omega
    · exact hlow
  have hquanta := quantaAt_scaled hlow (Nat.le_of_lt hhigh)
  rw [← hposition] at hquanta
  rw [hstep, hquanta]
  exact Nat.mul_le_mul_right _ hcount

/-- Magnitudes are in the order of their positions. -/
theorem quantaAt_le {p q : Nat} (h : p ≤ q) : quantaAt p ≤ quantaAt q := by
  induction q with
  | zero => exact Nat.le_of_eq (congrArg quantaAt (Nat.le_zero.mp h))
  | succ q ih =>
      by_cases heq : p = q + 1
      · exact Nat.le_of_eq (congrArg quantaAt heq)
      · have hle := ih (by omega)
        have hnext := quantaAt_succ q
        omega

/-- Midpoints are in the order of their positions. -/
theorem midpoint_le {p q : Nat} (h : p ≤ q) :
    quantaAt p + quantaAt (p + 1) ≤ quantaAt q + quantaAt (q + 1) :=
  Nat.add_le_add (quantaAt_le h) (quantaAt_le (Nat.succ_le_succ h))

/-- A count of at least so many units rounds to no less. -/
theorem le_roundHalfEven {count num den : Nat} (hden : 0 < den) (h : count * den ≤ num) :
    count ≤ roundHalfEven num den := by
  have hquotient : count ≤ num / den := (Nat.le_div_iff_mul_le hden).mpr h
  rcases roundHalfEven_eq_or num den with heq | heq <;> omega

/-- The rounded number of steps of a scale in a ratio. -/
structure Steps (num den scale count : Nat) : Prop where
  /-- Beyond the first scale there are at least two to the 52nd. -/
  low : scale = 0 ∨ twoTo 52 ≤ count
  high : count ≤ twoTo 53
  /-- They are there before rounding. -/
  fits : scale = 0 ∨ twoTo 52 * (den * twoTo scale) ≤ num
  above : 2 * (count * (den * twoTo scale)) ≤ 2 * num + den * twoTo scale
  below : 2 * num ≤ 2 * (count * (den * twoTo scale)) + den * twoTo scale

/-- The nearest position is a rounded number of steps. -/
theorem exists_steps (num : Nat) {den : Nat} (hden : 0 < den) :
    ∃ scale count, nearestPosition num den = scale * twoTo 52 + count ∧
      Steps num den scale count := by
  obtain ⟨scale, hlog⟩ : ∃ scale, scale = (num / den).log2 - 52 := ⟨_, rfl⟩
  have hposition : nearestPosition num den
      = scale * twoTo 52 + roundHalfEven num (den * twoTo scale) := by
    rw [hlog]
    rfl
  have hunit : 0 < den * twoTo scale := Nat.mul_pos hden (twoTo_pos scale)
  have hbelow : num / den < twoTo ((num / den).log2 + 1) := Nat.lt_log2_self
  -- The quotient has fewer than two to the 53rd steps, so it rounds to no more.
  have hsteps : num / (den * twoTo scale) < twoTo 53 := by
    rw [← Nat.div_div_eq_div_mul, Nat.div_lt_iff_lt_mul (twoTo_pos _), ← twoTo_add]
    exact Nat.lt_of_lt_of_le hbelow (twoTo_le_twoTo (by omega))
  have hhigh : roundHalfEven num (den * twoTo scale) ≤ twoTo 53 := by
    rcases roundHalfEven_eq_or num (den * twoTo scale) with heq | heq <;> omega
  -- Beyond the first scale it reaches the power of two that its logarithm names.
  have hfits : scale = 0 ∨ twoTo 52 * (den * twoTo scale) ≤ num := by
    by_cases hscale : scale = 0
    · exact Or.inl hscale
    · right
      have hne : num / den ≠ 0 := by
        intro hzero
        rw [hzero, Nat.log2_zero] at hlog
        omega
      have hpower : twoTo (num / den).log2 ≤ num / den := Nat.log2_self_le hne
      have hsum : twoTo 52 * twoTo scale = twoTo (num / den).log2 := by
        rw [← twoTo_add]
        congr 1
        omega
      rw [Nat.mul_left_comm, hsum, Nat.mul_comm]
      exact Nat.mul_le_of_le_div _ _ _ hpower
  refine ⟨scale, roundHalfEven num (den * twoTo scale), hposition, ?_, hhigh, hfits,
    roundHalfEven_mul_le _ _, le_roundHalfEven_mul hunit⟩
  rcases hfits with hzero | hfits
  · exact Or.inl hzero
  · exact Or.inr (le_roundHalfEven hunit hfits)

/-- A ratio is not below the midpoint before the magnitude it goes to. -/
theorem midpoint_le_of_nearestPosition {num den p : Nat} (hden : 0 < den)
    (h : nearestPosition num den = p + 1) :
    (quantaAt p + quantaAt (p + 1)) * den ≤ 2 * num := by
  rcases exists_steps num hden with ⟨scale, count, hposition, hsteps⟩
  rw [h] at hposition
  have hlow := hsteps.low
  have hhigh := hsteps.high
  have hquanta := quantaAt_scaled hlow hhigh
  rw [← hposition] at hquanta
  rw [hquanta]
  by_cases hbottom : count = twoTo 52 ∧ scale ≠ 0
  · -- At the bottom of a block the ratio is not below the magnitude itself.
    have hnum : count * (den * twoTo scale) ≤ num := by
      have hfits := hsteps.fits
      rw [hbottom.1]
      omega
    have hlower := quantaAt_le (Nat.le_succ p)
    rw [Nat.succ_eq_add_one, hquanta] at hlower
    calc (quantaAt p + count * twoTo scale) * den
        ≤ (count * twoTo scale + count * twoTo scale) * den :=
          Nat.mul_le_mul_right _ (Nat.add_le_add_right hlower _)
      _ = 2 * (count * (den * twoTo scale)) := by
          rw [← Nat.two_mul, Nat.mul_assoc, Nat.mul_assoc, Nat.mul_comm den]
      _ ≤ 2 * num := Nat.mul_le_mul_left _ hnum
  · -- Otherwise the magnitude below is one step of the same scale below.
    have hpositive : 0 < count := by
      have hblock := twoTo_pos 52
      by_cases hscale : scale = 0
      · rw [hscale] at hposition
        omega
      · omega
    have hbelow : quantaAt p = (count - 1) * twoTo scale := by
      rw [← quantaAt_scaled (by omega) (by omega)]
      congr 1
      omega
    have hsum : quantaAt p + count * twoTo scale + twoTo scale = 2 * (count * twoTo scale) := by
      have hle : twoTo scale ≤ count * twoTo scale := Nat.le_mul_of_pos_left _ hpositive
      rw [hbelow, Nat.sub_mul, Nat.one_mul]
      omega
    have hscaled : (quantaAt p + count * twoTo scale) * den + den * twoTo scale
        = 2 * (count * (den * twoTo scale)) := by
      rw [Nat.mul_comm den, ← Nat.add_mul, hsum, Nat.mul_assoc, Nat.mul_assoc]
    have habove := hsteps.above
    omega

/-- A ratio is not above the midpoint after the magnitude it goes to. -/
theorem le_midpoint_nearestPosition (num : Nat) {den : Nat} (hden : 0 < den) :
    2 * num ≤ (quantaAt (nearestPosition num den)
      + quantaAt (nearestPosition num den + 1)) * den := by
  rcases exists_steps num hden with ⟨scale, count, hposition, hsteps⟩
  generalize nearestPosition num den = p at *
  have hquanta := quantaAt_scaled hsteps.low hsteps.high
  rw [← hposition] at hquanta
  -- The next magnitude is at least one step of this scale above.
  have hstep : twoTo scale ≤ stepAt p := by
    by_cases hscale : scale = 0
    · rw [hscale]
      exact stepAt_pos p
    · have hlow := hsteps.low
      have hblocks : scale + 1 ≤ p / twoTo 52 := by
        rw [Nat.le_div_iff_mul_le (twoTo_pos 52), hposition, Nat.add_mul]
        omega
      exact twoTo_le_twoTo (Nat.le_sub_of_add_le hblocks)
  have hnext : count * twoTo scale + twoTo scale ≤ quantaAt (p + 1) := by
    rw [quantaAt_succ, hquanta]
    exact Nat.add_le_add_left hstep _
  have hscaled : 2 * (count * (den * twoTo scale)) + den * twoTo scale
      = (count * twoTo scale + (count * twoTo scale + twoTo scale)) * den := by
    rw [← Nat.add_assoc, ← Nat.two_mul, Nat.add_mul, Nat.mul_comm den, Nat.mul_assoc 2,
      Nat.mul_assoc]
  calc 2 * num ≤ 2 * (count * (den * twoTo scale)) + den * twoTo scale := hsteps.below
    _ = (count * twoTo scale + (count * twoTo scale + twoTo scale)) * den := hscaled
    _ ≤ (quantaAt p + quantaAt (p + 1)) * den := by
        rw [hquanta]
        exact Nat.mul_le_mul_right _ (Nat.add_le_add_left hnext _)

/-- A ratio below a midpoint goes to a position before it. -/
theorem nearestPosition_le {num den p : Nat} (hden : 0 < den)
    (h : 2 * num < (quantaAt p + quantaAt (p + 1)) * den) : nearestPosition num den ≤ p := by
  by_cases hle : nearestPosition num den ≤ p
  · exact hle
  · have hposition : nearestPosition num den = nearestPosition num den - 1 + 1 := by omega
    have hlower := midpoint_le_of_nearestPosition hden hposition
    have horder := Nat.mul_le_mul_right den
      (midpoint_le (show p ≤ nearestPosition num den - 1 by omega))
    omega

/-- Larger ratios go to larger positions. -/
theorem nearestPosition_mono {num den num' den' : Nat} (hden : 0 < den) (hden' : 0 < den')
    (h : num * den' ≤ num' * den) : nearestPosition num den ≤ nearestPosition num' den' := by
  by_cases heq : num * den' = num' * den
  · exact Nat.le_of_eq (nearestPosition_congr hden hden' heq)
  · -- A ratio that goes to a position is not above the midpoint after it, and one that
    -- is smaller is below.
    have hupper := Nat.mul_le_mul_right den (le_midpoint_nearestPosition num' hden')
    refine nearestPosition_le hden (Nat.lt_of_mul_lt_mul_right (a := den') ?_)
    rw [Nat.mul_right_comm _ den den', Nat.mul_assoc 2]
    rw [Nat.mul_assoc 2] at hupper
    omega

theorem quantaPerOne_pos : (0 : ℚ) < quantaPerOne := Nat.cast_pos.mpr (twoTo_pos 1074)

/-- The magnitude at a position. -/
def magnitudeAt (position : Nat) : ℚ := quantaAt position / quantaPerOne

/-- The position nearest to the magnitude of a rational number. -/
def positionOf (v : ℚ) : Nat := nearestPosition (v.num.natAbs * quantaPerOne) v.den

theorem abs_eq_natAbs_div (v : ℚ) : |v| = v.num.natAbs / v.den := by
  rw [← Rat.num_div_den |v|, Rat.num_abs_eq_abs_num, Rat.den_abs_eq_den, Nat.cast_natAbs]

/-- A ratio can be given by any terms. -/
theorem positionOf_eq {v : ℚ} {num den : Nat} (hden : 0 < den) (h : |v| = num / den) :
    positionOf v = nearestPosition (num * quantaPerOne) den := by
  refine nearestPosition_congr v.den_pos hden ?_
  rw [abs_eq_natAbs_div, div_eq_div_iff (Nat.cast_ne_zero.mpr v.den_nz)
    (Nat.cast_ne_zero.mpr (Nat.ne_of_gt hden))] at h
  have hterms : v.num.natAbs * den = num * v.den := by exact_mod_cast h
  rw [Nat.mul_right_comm, hterms, Nat.mul_right_comm]

/-- The sign does not matter for the position. -/
theorem positionOf_abs (v : ℚ) : positionOf |v| = positionOf v := by
  rw [positionOf, Rat.num_abs_eq_abs_num, Int.natAbs_abs, Rat.den_abs_eq_den, positionOf]

/-- Larger magnitudes go to larger positions. -/
theorem positionOf_mono {v w : ℚ} (h : |v| ≤ |w|) : positionOf v ≤ positionOf w := by
  refine nearestPosition_mono v.den_pos w.den_pos ?_
  rw [abs_eq_natAbs_div, abs_eq_natAbs_div, div_le_div_iff₀ (Nat.cast_pos.mpr v.den_pos)
    (Nat.cast_pos.mpr w.den_pos)] at h
  have hterms : v.num.natAbs * w.den ≤ w.num.natAbs * v.den := by exact_mod_cast h
  rw [Nat.mul_right_comm, Nat.mul_right_comm w.num.natAbs]
  exact Nat.mul_le_mul_right _ hterms

theorem magnitudeAt_nonneg (p : Nat) : 0 ≤ magnitudeAt p :=
  div_nonneg (Nat.cast_nonneg _) quantaPerOne_pos.le

/-- A magnitude is nearest to itself. -/
theorem positionOf_magnitudeAt (p : Nat) : positionOf (magnitudeAt p) = p := by
  have hmagnitude : |magnitudeAt p| = (quantaAt p : Nat) / (quantaPerOne : Nat) :=
    abs_of_nonneg (magnitudeAt_nonneg p)
  have hratio := nearestPosition_mul (quantaAt p) 1 (twoTo_pos 1074)
  rw [Nat.one_mul, nearestPosition_quantaAt] at hratio
  rw [positionOf_eq (twoTo_pos 1074) hmagnitude]
  exact hratio

/-- A number is not below the midpoint before the magnitude it goes to. -/
theorem midpoint_le_of_positionOf {v : ℚ} {p : Nat} (h : positionOf v = p + 1) :
    magnitudeAt p + magnitudeAt (p + 1) ≤ 2 * |v| := by
  have hden : (0 : ℚ) < v.den := Nat.cast_pos.mpr v.den_pos
  have hmidpoint := midpoint_le_of_nearestPosition v.den_pos h
  have hcast : ((quantaAt p : ℚ) + quantaAt (p + 1)) * v.den
      ≤ 2 * (v.num.natAbs * quantaPerOne) := by exact_mod_cast hmidpoint
  rw [abs_eq_natAbs_div, magnitudeAt, magnitudeAt, ← add_div, mul_div_assoc',
    div_le_div_iff₀ quantaPerOne_pos hden, mul_assoc]
  exact hcast

/-- A number is not above the midpoint after the magnitude it goes to. -/
theorem le_midpoint_positionOf (v : ℚ) :
    2 * |v| ≤ magnitudeAt (positionOf v) + magnitudeAt (positionOf v + 1) := by
  have hden : (0 : ℚ) < v.den := Nat.cast_pos.mpr v.den_pos
  have hmidpoint := le_midpoint_nearestPosition (v.num.natAbs * quantaPerOne) v.den_pos
  change _ ≤ (quantaAt (positionOf v) + quantaAt (positionOf v + 1)) * v.den at hmidpoint
  have hcast : 2 * ((v.num.natAbs : ℚ) * quantaPerOne)
      ≤ (quantaAt (positionOf v) + quantaAt (positionOf v + 1)) * v.den := by
    exact_mod_cast hmidpoint
  rw [abs_eq_natAbs_div, magnitudeAt, magnitudeAt, ← add_div, mul_div_assoc',
    div_le_div_iff₀ hden quantaPerOne_pos, mul_assoc]
  exact hcast

/-- The distance from a magnitude to the next. -/
def spacingAt (position : Nat) : ℚ := stepAt position / quantaPerOne

theorem spacingAt_pos (p : Nat) : 0 < spacingAt p :=
  div_pos (Nat.cast_pos.mpr (stepAt_pos p)) quantaPerOne_pos

theorem magnitudeAt_succ (p : Nat) : magnitudeAt (p + 1) = magnitudeAt p + spacingAt p := by
  rw [magnitudeAt, quantaAt_succ, Nat.cast_add, add_div]
  rfl

theorem magnitudeAt_le {p q : Nat} (h : p ≤ q) : magnitudeAt p ≤ magnitudeAt q :=
  div_le_div_of_nonneg_right (Nat.cast_le.mpr (quantaAt_le h)) quantaPerOne_pos.le

/-- The next magnitude is at most two to the 53rd times as large as the distance to
    it. -/
theorem magnitudeAt_succ_le (p : Nat) : magnitudeAt (p + 1) ≤ 2 ^ 53 * spacingAt p := by
  have hcast : (quantaAt (p + 1) : ℚ) ≤ 2 ^ 53 * stepAt p := by
    exact_mod_cast quantaAt_succ_le p
  rw [magnitudeAt, spacingAt, mul_div_assoc']
  exact div_le_div_of_nonneg_right hcast quantaPerOne_pos.le

/-- Beyond the first block a magnitude is at least two to the 52nd times as large as
    the distance to the next. -/
theorem le_magnitudeAt {p : Nat} (h : twoTo 52 ≤ p) : 2 ^ 52 * spacingAt p ≤ magnitudeAt p := by
  have hcast : (2 : ℚ) ^ 52 * stepAt p ≤ quantaAt p := by
    exact_mod_cast le_quantaAt h
  rw [magnitudeAt, spacingAt, mul_div_assoc']
  exact div_le_div_of_nonneg_right hcast quantaPerOne_pos.le

/-- A number close to a magnitude goes there. The bound is the distance to the nearer
    of the two midpoints where the magnitude is a power of two. -/
theorem positionOf_eq_of_close {v : ℚ} {p : Nat}
    (h : 2 ^ 54 * |(|v| - magnitudeAt p)| < magnitudeAt p) : positionOf v = p := by
  have hbelow := neg_abs_le (|v| - magnitudeAt p)
  have habove := le_abs_self (|v| - magnitudeAt p)
  refine Nat.le_antisymm (Nat.le_of_not_lt fun hlt => ?_) (Nat.le_of_not_lt fun hlt => ?_)
  · -- Beyond the position the number would be past the midpoint after it.
    have hmidpoint := midpoint_le_of_positionOf (v := v) (p := positionOf v - 1) (by omega)
    have hfirst := magnitudeAt_le (show p ≤ positionOf v - 1 by omega)
    have hsecond := magnitudeAt_le (show p + 1 ≤ positionOf v - 1 + 1 by omega)
    have hnext := magnitudeAt_succ p
    have hbound := magnitudeAt_succ_le p
    have hspacing := spacingAt_pos p
    linarith
  · -- Before it the number would not have reached the midpoint before it.
    have hmidpoint := le_midpoint_positionOf v
    have hfirst := magnitudeAt_le (show positionOf v ≤ p - 1 by omega)
    have hsecond := magnitudeAt_le (show positionOf v + 1 ≤ p - 1 + 1 by omega)
    have hnext := magnitudeAt_succ (p - 1)
    have hbound := magnitudeAt_succ_le (p - 1)
    rw [show p - 1 + 1 = p by omega] at hsecond hnext hbound
    linarith

end Binary64

end PathScript
