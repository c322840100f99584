import Mathlib.Data.Int.Log
import Mathlib.Data.Rat.Floor
import Mathlib.Tactic.Ring
import PathScript.Proofs.Maps
import PathScript.Proofs.NearestNumber

/-!
# What Decimals Denote

A finite decimal denotes a rational number, and decimal arithmetic is described by
what it does to these numbers. A sum or a product is the exact one, cut to the
digits that are kept. Cutting is described without coefficients and exponents: the
nearest multiple of a power of ten, half way cases going to the even multiple,
where the power is chosen so that the multiple has as many digits as are kept.

So exactness needs no argument about how decimals are represented. A rational
number that can be written in the digits that are kept is its own rounding.

Becoming a binary number is a matter of what is denoted as well. The orders of
magnitude that are settled first agree with where the ratio would go, and zero
alone keeps a sign that it does not denote.

## Main definitions

* `nearestInteger`, `roundSignificant`: Rounding of rational numbers.
* `WithinDigits`: Numbers that can be written in so many digits.
* `Decimal.value`: What a decimal denotes.
* `Binary64.ofRat`: The binary number nearest to a rational one.

## Theorems

* `roundSignificant_eq_self`: Numbers that need no rounding.
* `withinDigits_roundSignificant`: What rounding leads to.
* `Decimal.value_round`, `Decimal.value_add?`, `Decimal.value_mul?`: What
  operations on decimals do to what they denote.
* `Decimal.toBinary64_eq_atPosition`: The binary number nearest to a decimal.
-/

namespace PathScript

/-- The integer nearest to a rational number; a number half way between two integers
    goes to the even one. -/
def nearestInteger (v : ℚ) : ℤ :=
  if Int.fract v < 1 / 2 then ⌊v⌋
  else if 1 / 2 < Int.fract v then ⌊v⌋ + 1
  else ⌊v⌋ + ⌊v⌋ % 2

/-- A rational number rounded to so many significant digits, half way cases to the even
    digit. -/
def roundSignificant (digits : ℕ) (v : ℚ) : ℚ :=
  let unit : ℚ := 10 ^ (Int.log 10 |v| + 1 - digits)
  nearestInteger (v / unit) * unit

/-- A number that can be written in so many decimal digits, with any exponent. -/
def WithinDigits (digits : ℕ) (v : ℚ) : Prop :=
  ∃ c e : ℤ, |c| < 10 ^ digits ∧ v = c * 10 ^ e

/-- Rounding moves a number by less than a half, or by a half to an even integer. -/
theorem nearestInteger_spec (v : ℚ) :
    |v - nearestInteger v| < 1 / 2 ∨ |v - nearestInteger v| = 1 / 2 ∧ nearestInteger v % 2 = 0 := by
  have hfract := Int.fract_add_floor v
  have hnonneg := Int.fract_nonneg v
  have hlt := Int.fract_lt_one v
  unfold nearestInteger
  split
  · next hdown =>
      left
      rw [abs_lt]
      constructor <;> linarith
  · split
    · next hup =>
        left
        push_cast
        rw [abs_lt]
        constructor <;> linarith
    · -- Half way one of the two neighbours is even.
      right
      have hhalf : Int.fract v = 1 / 2 := by linarith
      have hparity : ⌊v⌋ % 2 = 0 ∨ ⌊v⌋ % 2 = 1 := by omega
      rcases hparity with heven | hodd
      · rw [heven, add_zero]
        refine ⟨?_, heven⟩
        rw [show v - ⌊v⌋ = 1 / 2 by linarith]
        norm_num
      · rw [hodd]
        refine ⟨?_, by omega⟩
        push_cast
        rw [show v - (⌊v⌋ + 1) = -(1 / 2) by linarith]
        norm_num

theorem abs_sub_nearestInteger_le (v : ℚ) : |v - nearestInteger v| ≤ 1 / 2 := by
  rcases nearestInteger_spec v with hnear | ⟨hhalf, _⟩
  · exact hnear.le
  · exact hhalf.le

/-- No other integer is so near. -/
theorem nearestInteger_eq {v : ℚ} {n : ℤ} (h : |v - n| < 1 / 2 ∨ |v - n| = 1 / 2 ∧ n % 2 = 0) :
    nearestInteger v = n := by
  have hspec := nearestInteger_spec v
  have hm := abs_le.mp (abs_sub_nearestInteger_le v)
  generalize nearestInteger v = m at *
  have hn := abs_le.mp (show |v - n| ≤ 1 / 2 by rcases h with hn | ⟨hn, _⟩ <;> linarith)
  have hbelow : (m : ℚ) - n ≤ 1 := by linarith
  have habove : -1 ≤ (m : ℚ) - n := by linarith
  have hbelow' : m - n ≤ 1 := by exact_mod_cast hbelow
  have habove' : -1 ≤ m - n := by exact_mod_cast habove
  by_cases heq : m = n
  · exact heq
  · -- Two that are a half away on either side are not both even.
    have hapart : (1 : ℚ) ≤ |v - n| + |v - m| := by
      have hdistance : (1 : ℤ) ≤ |m - n| := Int.one_le_abs (sub_ne_zero.mpr heq)
      have hcast : (1 : ℚ) ≤ |(m : ℚ) - n| := by exact_mod_cast hdistance
      have htriangle := abs_sub_le (m : ℚ) v n
      rw [abs_sub_comm (m : ℚ) v] at htriangle
      linarith
    have hmeven : m % 2 = 0 := by
      rcases hspec with hm | ⟨_, hm⟩
      · rcases h with hn | ⟨hn, _⟩ <;> linarith
      · exact hm
    have hneven : n % 2 = 0 := by
      rcases h with hn | ⟨_, hn⟩
      · rcases hspec with hm | ⟨hm, _⟩ <;> linarith
      · exact hn
    omega

/-- An integer is nearest to itself. -/
theorem nearestInteger_intCast (n : ℤ) : nearestInteger n = n := by
  refine nearestInteger_eq (Or.inl ?_)
  rw [sub_self, abs_zero]
  norm_num

/-- Rounding goes by the magnitude. -/
theorem nearestInteger_neg (v : ℚ) : nearestInteger (-v) = -nearestInteger v := by
  refine nearestInteger_eq ?_
  have hsame : |-v - ((-nearestInteger v : ℤ) : ℚ)| = |v - nearestInteger v| := by
    push_cast
    rw [← abs_neg]
    congr 1
    ring
  rw [hsame]
  rcases nearestInteger_spec v with hnear | ⟨hhalf, heven⟩
  · exact Or.inl hnear
  · exact Or.inr ⟨hhalf, by omega⟩

/-- Rounding a quotient of natural numbers. -/
theorem nearestInteger_div (num : ℕ) {den : ℕ} (hden : 0 < den) :
    nearestInteger (num / den) = roundHalfEven num den := by
  have hpos : (0 : ℚ) < den := Nat.cast_pos.mpr hden
  have hdown : Int.fract ((num : ℚ) / den) < 1 / 2 ↔ 2 * (num % den) < den := by
    rw [Int.fract_div_natCast_eq_div_natCast_mod, div_lt_div_iff₀ hpos two_pos, one_mul, mul_comm]
    exact_mod_cast Iff.rfl
  have hup : 1 / 2 < Int.fract ((num : ℚ) / den) ↔ den < 2 * (num % den) := by
    rw [Int.fract_div_natCast_eq_div_natCast_mod, div_lt_div_iff₀ two_pos hpos, one_mul, mul_comm]
    exact_mod_cast Iff.rfl
  simp only [nearestInteger, roundHalfEven, hdown, hup, Rat.floor_natCast_div_natCast]
  split
  · rfl
  · split <;> push_cast <;> rfl

theorem ten_zpow_pos (e : ℤ) : (0 : ℚ) < 10 ^ e := zpow_pos (by norm_num) e

theorem tenTo_cast (n : ℕ) : (tenTo n : ℚ) = 10 ^ n := by
  change ((10 ^ n : ℕ) : ℚ) = 10 ^ n
  push_cast
  rfl

theorem log_lt_of_lt {v : ℚ} {k : ℤ} (hv : 0 < v) (h : v < 10 ^ k) : Int.log 10 v < k :=
  (Int.lt_zpow_iff_log_lt (by norm_num) hv).mp (by exact_mod_cast h)

theorem le_log_of_le {v : ℚ} {k : ℤ} (hv : 0 < v) (h : 10 ^ k ≤ v) : k ≤ Int.log 10 v :=
  (Int.zpow_le_iff_le_log (by norm_num) hv).mp (by exact_mod_cast h)

theorem lt_zpow_log (v : ℚ) : v < 10 ^ (Int.log 10 v + 1) := by
  have h := Int.lt_zpow_succ_log_self (R := ℚ) (b := 10) (by norm_num) v
  exact_mod_cast h

/-- A multiple of the unit that is rounded to is its own rounding. -/
theorem roundSignificant_of_multiple {digits : ℕ} {v : ℚ} {n : ℤ}
    (h : v = n * 10 ^ (Int.log 10 |v| + 1 - digits)) : roundSignificant digits v = v := by
  have hquotient : v / 10 ^ (Int.log 10 |v| + 1 - digits) = n :=
    (div_eq_iff (ne_of_gt (ten_zpow_pos _))).mpr h
  simp only [roundSignificant, hquotient, nearestInteger_intCast]
  exact h.symm

theorem zpow_log_le {v : ℚ} (hv : 0 < v) : 10 ^ Int.log 10 v ≤ v := by
  have h := Int.zpow_log_le_self (R := ℚ) (b := 10) (by norm_num) hv
  exact_mod_cast h

theorem WithinDigits.abs {digits : ℕ} {v : ℚ} (h : WithinDigits digits v) :
    WithinDigits digits |v| := by
  rcases h with ⟨c, e, hc, rfl⟩
  refine ⟨|c|, e, by rwa [abs_abs], ?_⟩
  rw [abs_mul, abs_of_pos (ten_zpow_pos e), Int.cast_abs]

/-- A number is a multiple of a power of ten if its first digit is at most as far above
    that power as there are digits. -/
theorem WithinDigits.exists_multiple {digits : ℕ} {v : ℚ} (h : WithinDigits digits v) {k : ℤ}
    (hk : 10 ^ (k + digits - 1) ≤ |v|) : ∃ n : ℤ, v = n * 10 ^ k := by
  rcases h with ⟨c, e, hc, hv⟩
  have hsize : |v| < 10 ^ (digits + e) := by
    have hcast : |(c : ℚ)| < 10 ^ digits := by exact_mod_cast hc
    rw [hv, abs_mul, abs_of_pos (ten_zpow_pos e), zpow_add₀ (by norm_num), zpow_natCast]
    exact mul_lt_mul_of_pos_right hcast (ten_zpow_pos e)
  have hexponents : k + digits - 1 < digits + e :=
    (zpow_lt_zpow_iff_right₀ (by norm_num)).mp (hk.trans_lt hsize)
  refine ⟨c * 10 ^ (e - k).toNat, ?_⟩
  rw [hv, show e = k + (e - k).toNat by omega, zpow_add₀ (by norm_num), zpow_natCast]
  push_cast
  rw [show k + ((e - k).toNat : ℤ) - k = (e - k).toNat by omega, Int.toNat_natCast]
  ring

/-- A number that can be written in the digits that are kept is its own rounding. -/
theorem roundSignificant_eq_self {digits : ℕ} {v : ℚ} (h : WithinDigits digits v) :
    roundSignificant digits v = v := by
  by_cases hzero : v = 0
  · refine roundSignificant_of_multiple (n := 0) ?_
    rw [hzero, Int.cast_zero, zero_mul]
  · have hfirst := zpow_log_le (abs_pos.mpr hzero)
    rcases h.exists_multiple (k := Int.log 10 |v| + 1 - digits)
      (by rwa [show Int.log 10 |v| + 1 - digits + digits - 1 = Int.log 10 |v| by omega])
      with ⟨n, hn⟩
    exact roundSignificant_of_multiple hn

/-- Rounding moves a number by at most half of the unit that is rounded to. -/
theorem abs_sub_roundSignificant_le (digits : ℕ) (v : ℚ) :
    |v - roundSignificant digits v| ≤ 10 ^ (Int.log 10 |v| + 1 - digits) / 2 := by
  simp only [roundSignificant]
  generalize Int.log 10 |v| + 1 - (digits : ℤ) = exponent
  have hunit := ten_zpow_pos exponent
  have hmoved := abs_sub_nearestInteger_le (v / 10 ^ exponent)
  have hscaled : v - nearestInteger (v / 10 ^ exponent) * 10 ^ exponent
      = (v / 10 ^ exponent - nearestInteger (v / 10 ^ exponent)) * 10 ^ exponent := by
    rw [sub_mul, div_mul_cancel₀ _ (ne_of_gt hunit)]
  rw [hscaled, abs_mul, abs_of_pos hunit]
  linarith [mul_le_mul_of_nonneg_right hmoved hunit.le]

/-- What rounding leads to can be written in the digits that are kept. -/
theorem withinDigits_roundSignificant {digits : ℕ} (hdigits : 0 < digits) (v : ℚ) :
    WithinDigits digits (roundSignificant digits v) := by
  simp only [roundSignificant]
  generalize hexponent : Int.log 10 |v| + 1 - digits = exponent
  have hunit := ten_zpow_pos exponent
  generalize hcoefficient : nearestInteger (v / 10 ^ exponent) = n
  have hbound : |v / 10 ^ exponent| < 10 ^ digits := by
    rw [abs_div, abs_of_pos hunit, div_lt_iff₀ hunit, ← zpow_natCast, ← zpow_add₀ (by norm_num),
      show (digits : ℤ) + exponent = Int.log 10 |v| + 1 by omega]
    exact lt_zpow_log |v|
  have hmoved := abs_sub_nearestInteger_le (v / 10 ^ exponent)
  rw [hcoefficient] at hmoved
  have hle : |n| ≤ 10 ^ digits := by
    have htriangle := abs_sub_abs_le_abs_sub (n : ℚ) (v / 10 ^ exponent)
    rw [abs_sub_comm] at htriangle
    have hlt : |(n : ℚ)| < 10 ^ digits + 1 := by linarith
    have hlt' : |n| < 10 ^ digits + 1 := by exact_mod_cast hlt
    omega
  by_cases hcarry : |n| < 10 ^ digits
  · exact ⟨n, exponent, hcarry, rfl⟩
  · -- A carry through all digits leaves a one before zeros.
    have hpower : |n| = 10 ^ digits := le_antisymm hle (not_lt.mp hcarry)
    have hone : (1 : ℤ) < 10 ^ digits := one_lt_pow₀ (by norm_num) (Nat.ne_of_gt hdigits)
    rcases abs_choice n with hpos | hneg
    · refine ⟨1, exponent + digits, by rwa [abs_one], ?_⟩
      rw [← hpos, hpower, zpow_add₀ (by norm_num), zpow_natCast]
      push_cast
      ring
    · refine ⟨-1, exponent + digits, by rwa [abs_neg, abs_one], ?_⟩
      rw [show n = -10 ^ digits by omega, zpow_add₀ (by norm_num), zpow_natCast]
      push_cast
      ring

/-- Rounding goes by the magnitude. -/
theorem roundSignificant_neg (digits : ℕ) (v : ℚ) :
    roundSignificant digits (-v) = -roundSignificant digits v := by
  simp only [roundSignificant, abs_neg, neg_div, nearestInteger_neg, Int.cast_neg, neg_mul]

namespace Decimal

/-- The rational number that a finite decimal denotes; the others denote none. -/
def value : Decimal → ℚ
  | .finite negative coefficient exponent => signed negative coefficient * 10 ^ exponent
  | _ => 0

theorem value_false (c : ℕ) (e : ℤ) : (finite false c e).value = c * 10 ^ e := by
  simp [value, signed]

theorem value_true (c : ℕ) (e : ℤ) : (finite true c e).value = -(finite false c e).value := by
  simp [value, signed]

theorem abs_value (s : Bool) (c : ℕ) (e : ℤ) : |(finite s c e).value| = c * 10 ^ e := by
  have hnonneg : (0 : ℚ) ≤ c * 10 ^ e := mul_nonneg (Nat.cast_nonneg c) (ten_zpow_pos e).le
  cases s with
  | false => rw [value_false, abs_of_nonneg hnonneg]
  | true => rw [value_true, value_false, abs_neg, abs_of_nonneg hnonneg]

theorem value_lt_zero_iff {s : Bool} {c : ℕ} {e : ℤ} :
    (finite s c e).value < 0 ↔ s = true ∧ c ≠ 0 := by
  have hunit := ten_zpow_pos e
  cases s with
  | false => simp [value_false, mul_nonneg (Nat.cast_nonneg c) hunit.le]
  | true => simp [value_true, value_false, hunit, Nat.pos_iff_ne_zero]

/-- The order of magnitude of a decimal is that of its digits and its exponent
    together. -/
theorem log_value {c : ℕ} (hc : 0 < c) (e : ℤ) :
    Int.log 10 ((c : ℚ) * 10 ^ e) = digitCount c - 1 + e := by
  have hdigits := digitCount_pos c
  have hpositive : (0 : ℚ) < c * 10 ^ e := mul_pos (Nat.cast_pos.mpr hc) (ten_zpow_pos e)
  have hlow : (10 : ℚ) ^ ((digitCount c - 1 : ℕ) + e) ≤ c * 10 ^ e := by
    rw [zpow_add₀ (by norm_num), zpow_natCast, ← tenTo_cast]
    exact mul_le_mul_of_nonneg_right (Nat.cast_le.mpr (tenTo_le_of_digitCount hc))
      (ten_zpow_pos e).le
  have hhigh : (c : ℚ) * 10 ^ e < 10 ^ (digitCount c + e) := by
    rw [zpow_add₀ (by norm_num), zpow_natCast, ← tenTo_cast]
    exact mul_lt_mul_of_pos_right (Nat.cast_lt.mpr (lt_tenTo_digitCount c)) (ten_zpow_pos e)
  have hle := le_log_of_le hpositive hlow
  have hlt := log_lt_of_lt hpositive hhigh
  omega

/-- A decimal is written in the digits of its coefficient. -/
theorem withinDigits_value {c digits : ℕ} (h : c < tenTo digits) (s : Bool) (e : ℤ) :
    WithinDigits digits (finite s c e).value := by
  refine ⟨signed s c, e, ?_, rfl⟩
  have habs : |signed s c| = c := by
    cases s with
    | false => exact abs_of_nonneg (Int.natCast_nonneg c)
    | true => exact (abs_neg _).trans (abs_of_nonneg (Int.natCast_nonneg c))
  rw [habs]
  exact_mod_cast h

/-- Rounding a number that has more digits than are kept. -/
theorem roundSignificant_of_excess {digits c excess : ℕ} (hc : 0 < c)
    (hexcess : digitCount c = digits + excess) (e : ℤ) :
    roundSignificant digits (c * 10 ^ e)
      = roundHalfEven c (tenTo excess) * 10 ^ (e + excess) := by
  have hnonneg : (0 : ℚ) ≤ c * 10 ^ e := mul_nonneg (Nat.cast_nonneg c) (ten_zpow_pos e).le
  have hexponent : (digitCount c : ℤ) - 1 + e + 1 - digits = e + excess := by omega
  have hquotient : (c : ℚ) * 10 ^ e / 10 ^ (e + excess) = c / tenTo excess := by
    rw [zpow_add₀ (by norm_num), zpow_natCast, tenTo_cast, mul_comm ((10 : ℚ) ^ e),
      mul_div_mul_right _ _ (ne_of_gt (ten_zpow_pos e))]
  simp only [roundSignificant, abs_of_nonneg hnonneg, log_value hc, hexponent, hquotient,
    nearestInteger_div c (tenTo_pos excess), Int.cast_natCast]

/-- Cutting a decimal rounds what it denotes. -/
theorem value_round {digits : ℕ} (hdigits : 0 < digits) (s : Bool) (c : ℕ) (e : ℤ) :
    ((finite s c e).round digits).value = roundSignificant digits (finite s c e).value := by
  by_cases hshort : digitCount c ≤ digits
  · -- Nothing is cut.
    have hexcess : digitCount c - digits = 0 := by omega
    have hcount : c < tenTo digits :=
      Nat.lt_of_lt_of_le (lt_tenTo_digitCount c) (Nat.pow_le_pow_right (by norm_num) hshort)
    rw [roundSignificant_eq_self (withinDigits_value hcount s e)]
    simp only [round, hexcess, show tenTo 0 = 1 from rfl, roundHalfEven_one, Int.ofNat_zero,
      Int.add_zero]
  · have hc : 0 < c := by
      by_cases hzero : c = 0
      · rw [hzero, digitCount, if_pos (by norm_num)] at hshort
        omega
      · omega
    have hrounded := roundSignificant_of_excess hc
      (show digitCount c = digits + (digitCount c - digits) by omega) e
    cases s with
    | false =>
        rw [value_false, hrounded, round]
        exact value_false _ _
    | true =>
        rw [value_true, value_false, roundSignificant_neg, hrounded, round]
        exact (value_true _ _).trans (congrArg Neg.neg (value_false _ _))

/-- Zeros can be moved between the coefficient and the exponent. -/
theorem value_mul_tenTo (s : Bool) (c k : ℕ) (e : ℤ) :
    (finite s (c * tenTo k) (e - k)).value = (finite s c e).value := by
  have hmagnitude : (finite false (c * tenTo k) (e - k)).value = (finite false c e).value := by
    rw [value_false, value_false, Nat.cast_mul, tenTo_cast, zpow_sub₀ (by norm_num), zpow_natCast]
    field_simp
  cases s with
  | false => exact hmagnitude
  | true => rw [value_true, hmagnitude, value_true]

/-- The sum of decimals denotes the sum. -/
theorem value_exactSum (s : Bool) (c : ℕ) (e : ℤ) (t : Bool) (d : ℕ) (f : ℤ) :
    (exactSum s c e t d f).value = (finite s c e).value + (finite t d f).value := by
  unfold exactSum
  extract_lets base left right total negative
  have htotal : signed negative total.natAbs = total := by
    refine signed_natAbs fun hne => ?_
    simp only [negative, if_neg hne, decide_eq_true_eq]
  -- Each term is a multiple of the smaller power of ten.
  have hleft : (finite s c e).value = left * 10 ^ base := by
    rw [← value_mul_tenTo s c (e - base).toNat e, show e - ((e - base).toNat : ℤ) = base by omega]
    rfl
  have hright : (finite t d f).value = right * 10 ^ base := by
    rw [← value_mul_tenTo t d (f - base).toNat f, show f - ((f - base).toNat : ℤ) = base by omega]
    rfl
  rw [hleft, hright, value, htotal]
  simp only [total, Int.cast_add, add_mul]

/-- The product of decimals denotes the product. -/
theorem value_exactProduct (s : Bool) (c : ℕ) (e : ℤ) (t : Bool) (d : ℕ) (f : ℤ) :
    (finite (s != t) (c * d) (e + f)).value = (finite s c e).value * (finite t d f).value := by
  have hmagnitude : (finite false (c * d) (e + f)).value
      = (finite false c e).value * (finite false d f).value := by
    rw [value_false, value_false, value_false, Nat.cast_mul, zpow_add₀ (by norm_num)]
    ring
  cases s <;> cases t <;> simp [value_true, hmagnitude]

/-- The sum at a precision denotes the rounded sum. -/
theorem value_add? {digits : ℕ} (hdigits : 0 < digits) {x y : Decimal} (hx : x.isFinite = true)
    (hy : y.isFinite = true) : ∃ z, add? digits x y = some z ∧ z.isFinite = true ∧
      z.value = roundSignificant digits (x.value + y.value) := by
  cases x with
  | nan => exact absurd hx Bool.false_ne_true
  | infinite s => exact absurd hx Bool.false_ne_true
  | finite s c e =>
      cases y with
      | nan => exact absurd hy Bool.false_ne_true
      | infinite t => exact absurd hy Bool.false_ne_true
      | finite t d f =>
          refine ⟨_, rfl, rfl, ?_⟩
          rw [← value_exactSum]
          exact value_round hdigits _ _ _

/-- The product at a precision denotes the rounded product. -/
theorem value_mul? {digits : ℕ} (hdigits : 0 < digits) {x y : Decimal} (hx : x.isFinite = true)
    (hy : y.isFinite = true) : ∃ z, mul? digits x y = some z ∧ z.isFinite = true ∧
      z.value = roundSignificant digits (x.value * y.value) := by
  cases x with
  | nan => exact absurd hx Bool.false_ne_true
  | infinite s => exact absurd hx Bool.false_ne_true
  | finite s c e =>
      cases y with
      | nan => exact absurd hy Bool.false_ne_true
      | infinite t => exact absurd hy Bool.false_ne_true
      | finite t d f =>
          refine ⟨_, rfl, rfl, ?_⟩
          rw [← value_exactProduct]
          exact value_round hdigits _ _ _

end Decimal

namespace Binary64

/-- The number at a position, with the given sign; positions beyond the finite ones are
    infinity. -/
def atPosition (negative : Bool) (position : Nat) : Binary64 :=
  if h : position < finiteMagnitudes then .finite negative ⟨position, h⟩ else .infinite negative

/-- The binary number nearest to a rational number. -/
def ofRat (v : ℚ) : Binary64 := atPosition (decide (v < 0)) (positionOf v)

theorem atPosition_of_le {position : Nat} (h : finiteMagnitudes ≤ position) (negative : Bool) :
    atPosition negative position = .infinite negative :=
  dif_neg (Nat.not_lt.mpr h)

/-- Numbers that are too large for a finite position. -/
theorem le_positionOf {v : ℚ} (h : 10 ^ (310 : ℤ) ≤ |v|) : finiteMagnitudes ≤ positionOf v := by
  have hpower : |(10 : ℚ) ^ (310 : ℤ)| = (tenTo 310 : ℕ) / (1 : ℕ) := by
    rw [abs_of_pos (ten_zpow_pos 310), tenTo_cast, Nat.cast_one, div_one, zpow_ofNat]
  have hbound : finiteMagnitudes ≤ nearestPosition (tenTo 310 * quantaPerOne) 1 := by
    decide +kernel
  rw [← positionOf_eq Nat.one_pos hpower] at hbound
  exact Nat.le_trans hbound (positionOf_mono ((abs_of_pos (ten_zpow_pos 310)).trans_le h))

/-- Numbers that are too small for any position but that of zero. -/
theorem positionOf_eq_zero {v : ℚ} (h : |v| ≤ 10 ^ (-330 : ℤ)) : positionOf v = 0 := by
  have hpower : |(10 : ℚ) ^ (-330 : ℤ)| = (1 : ℕ) / (tenTo 330 : ℕ) := by
    rw [abs_of_pos (ten_zpow_pos (-330)), tenTo_cast, Nat.cast_one, one_div, zpow_neg, zpow_ofNat]
  have hbound : nearestPosition (1 * quantaPerOne) (tenTo 330) = 0 := by decide +kernel
  rw [← positionOf_eq (tenTo_pos 330) hpower] at hbound
  have hle : positionOf v ≤ positionOf (10 ^ (-330 : ℤ)) :=
    positionOf_mono (h.trans (le_abs_self _))
  exact Nat.le_zero.mp (Nat.le_trans hle (Nat.le_of_eq hbound))

end Binary64

namespace Decimal

/-- The magnitude of a decimal as a ratio of natural numbers. -/
theorem value_eq_ratio (c : ℕ) (e : ℤ) :
    (c : ℚ) * 10 ^ e = (c * tenTo e.toNat : ℕ) / (tenTo (-e).toNat : ℕ) := by
  have hpower : (10 : ℚ) ^ e = 10 ^ e.toNat / 10 ^ (-e).toNat := by
    rw [← zpow_natCast, ← zpow_natCast, ← zpow_sub₀ (by norm_num)]
    congr 1
    omega
  rw [Nat.cast_mul, tenTo_cast, tenTo_cast, hpower, mul_div_assoc]

/-- The binary number nearest to a decimal is the one nearest to what it denotes. -/
theorem toBinary64_eq_atPosition (s : Bool) (c : ℕ) (e : ℤ) :
    (finite s c e).toBinary64 = .atPosition s (Binary64.positionOf (finite s c e).value) := by
  have habs := abs_value s c e
  generalize (finite s c e).value = v at *
  by_cases hc : c = 0
  · rw [hc, Nat.cast_zero, zero_mul] at habs
    rw [hc, toBinary64_zero, Binary64.positionOf_eq_zero (habs.trans_le (ten_zpow_pos _).le)]
    rfl
  · have hpos : 0 < c := by omega
    have hpositive : 0 < |v| := by
      rw [habs]
      exact mul_pos (Nat.cast_pos.mpr hpos) (ten_zpow_pos e)
    have hlog := log_value hpos e
    rw [← habs] at hlog
    by_cases hlarge : tooLarge < e + digitCount c
    · -- The order of magnitude alone shows that the number is too large.
      have horder : (310 : ℤ) ≤ Int.log 10 |v| := by
        rw [tooLarge] at hlarge
        omega
      have hbound : 10 ^ (310 : ℤ) ≤ |v| := by
        exact_mod_cast (Int.zpow_le_iff_le_log (by norm_num) hpositive).mpr horder
      rw [Binary64.atPosition_of_le (Binary64.le_positionOf hbound)]
      simp only [toBinary64, if_neg hc, if_pos hlarge]
    · by_cases hsmall : e + digitCount c < tooSmall
      · have horder : Int.log 10 |v| < -330 := by
          rw [tooSmall] at hsmall
          omega
        have hbound : |v| < 10 ^ (-330 : ℤ) := by
          exact_mod_cast (Int.lt_zpow_iff_log_lt (by norm_num) hpositive).mpr horder
        rw [Binary64.positionOf_eq_zero hbound.le]
        simp only [toBinary64, if_neg hc, if_neg hlarge, if_pos hsmall]
        rfl
      · rw [value_eq_ratio] at habs
        rw [toBinary64_of_order hpos (by omega) (by omega),
          Binary64.positionOf_eq (tenTo_pos _) habs]
        rfl

end Decimal

end PathScript
