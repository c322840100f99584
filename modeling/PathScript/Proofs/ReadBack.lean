import PathScript.Number.Shortest

/-!
# Reading Back

Every finite number is the binary number nearest to the decimal it is written
as. The search for that decimal tries short ones and accepts only what reads
back, so most of this holds by construction. Two things are left to show. A
decimal may be put in another form before it is written, with zeros moved
between coefficient and exponent, and the number nearest to it must not depend
on the form. And behind the search stands the exact expansion of the number,
which has to read back as well.

The first holds because the nearest position is a function of a ratio and not
of its terms, and because the order of magnitude, which is looked at before the
ratio, counts digits and exponent together. The second holds because positions
are numbered in such a way that rounding a magnitude that needs no rounding
gives its position.

## Theorems

* `lt_tenTo_digitCount`, `tenTo_le_of_digitCount`: What the number of digits
  says about a number.
* `Binary64.nearestPosition_congr`: The nearest position depends on the ratio.
* `Binary64.nearestPosition_quantaAt`: A magnitude is nearest to itself.
* `Decimal.toBinary64_mul_tenTo`: The form of a decimal does not matter.
* `Binary64.toBinary64_toDecimal`: What a finite number is written as reads back.
* `Binary64.toBinary64_quotient`: So does the integer that a number is.
-/

namespace PathScript

theorem twoTo_add (m n : Nat) : twoTo (m + n) = twoTo m * twoTo n := Nat.pow_add 2 m n

theorem twoTo_le_twoTo {m n : Nat} (h : m ≤ n) : twoTo m ≤ twoTo n :=
  Nat.pow_le_pow_right (by decide) h

theorem tenTo_add (m n : Nat) : tenTo (m + n) = tenTo m * tenTo n := Nat.pow_add 10 m n

theorem tenTo_lt_tenTo {m n : Nat} : tenTo m < tenTo n ↔ m < n :=
  Nat.pow_lt_pow_iff_right (by decide)

/-- A number has no more digits than counted. -/
theorem lt_tenTo_digitCount (n : Nat) : n < tenTo (digitCount n) := by
  fun_induction digitCount n with
  | case1 n hsmall => exact hsmall
  | case2 n hsmall hblock ih =>
      rw [tenTo_succ]
      omega
  | case3 n hsmall hblock ih =>
      rw [tenTo_add]
      exact (Nat.div_lt_iff_lt_mul (tenTo_pos _)).mp ih

/-- A number other than zero has no fewer. -/
theorem tenTo_le_of_digitCount {n : Nat} (h : 0 < n) : tenTo (digitCount n - 1) ≤ n := by
  fun_induction digitCount n with
  | case1 n hsmall => exact h
  | case2 n hsmall hblock ih =>
      have hpos := digitCount_pos (n / 10)
      have hfewer := ih (by omega)
      rw [show digitCount (n / 10) + 1 - 1 = digitCount (n / 10) - 1 + 1 by omega, tenTo_succ]
      omega
  | case3 n hsmall hblock ih =>
      -- A block of digits is taken off, and there is something before it.
      have hpos := digitCount_pos (n / tenTo digitBlock)
      have hfewer := ih (Nat.div_pos (Nat.le_of_not_lt hblock) (tenTo_pos _))
      rw [show digitCount (n / tenTo digitBlock) + digitBlock - 1
        = digitCount (n / tenTo digitBlock) - 1 + digitBlock by omega, tenTo_add]
      exact (Nat.le_div_iff_mul_le (tenTo_pos _)).mp hfewer

/-- The number of digits is determined by the powers of ten around a number. -/
theorem digitCount_le {n k : Nat} (h : n < tenTo (k + 1)) : digitCount n ≤ k + 1 := by
  rcases Nat.eq_zero_or_pos n with rfl | hpos
  · rw [digitCount]
    exact Nat.le_add_left 1 k
  · have hlow := tenTo_le_of_digitCount hpos
    have hlt := tenTo_lt_tenTo.mp (Nat.lt_of_le_of_lt hlow h)
    omega

theorem lt_digitCount {n k : Nat} (h : tenTo k ≤ n) : k < digitCount n :=
  tenTo_lt_tenTo.mp (Nat.lt_of_le_of_lt h (lt_tenTo_digitCount n))

/-- Zeros at the end are digits. -/
theorem digitCount_mul_tenTo {n : Nat} (h : 0 < n) (k : Nat) :
    digitCount (n * tenTo k) = digitCount n + k := by
  have hpos := digitCount_pos n
  -- The powers of ten around the number move up together with it.
  have hlow : tenTo (digitCount n - 1 + k) ≤ n * tenTo k := by
    rw [tenTo_add]
    exact Nat.mul_le_mul_right _ (tenTo_le_of_digitCount h)
  have hhigh : n * tenTo k < tenTo (digitCount n - 1 + k + 1) := by
    rw [show digitCount n - 1 + k + 1 = digitCount n + k by omega, tenTo_add]
    exact Nat.mul_lt_mul_of_pos_right (lt_tenTo_digitCount n) (tenTo_pos k)
  have hle := digitCount_le hhigh
  have hlt := lt_digitCount hlow
  omega

/-- A common factor does not change a rounded quotient. -/
theorem roundHalfEven_mul (num den : Nat) {c : Nat} (hc : 0 < c) :
    roundHalfEven (num * c) (den * c) = roundHalfEven num den := by
  have htwice : 2 * (num % den * c) = 2 * (num % den) * c := (Nat.mul_assoc _ _ _).symm
  simp only [roundHalfEven, Nat.mul_div_mul_right _ _ hc, Nat.mul_mod_mul_right, htwice,
    Nat.mul_lt_mul_right hc]

/-- A rounded quotient is the quotient or the next integer. -/
theorem roundHalfEven_eq_or (num den : Nat) :
    roundHalfEven num den = num / den ∨ roundHalfEven num den = num / den + 1 := by
  unfold roundHalfEven
  dsimp only
  split
  · exact Or.inl rfl
  · split
    · exact Or.inr rfl
    · omega

namespace Binary64

theorem nearestPosition_mul (num den : Nat) {c : Nat} (hc : 0 < c) :
    nearestPosition (num * c) (den * c) = nearestPosition num den := by
  simp only [nearestPosition, Nat.mul_div_mul_right _ _ hc]
  rw [Nat.mul_right_comm, roundHalfEven_mul _ _ hc]

/-- The nearest position depends on the ratio and not on its terms. -/
theorem nearestPosition_congr {num den num' den' : Nat} (hden : 0 < den) (hden' : 0 < den')
    (h : num * den' = num' * den) : nearestPosition num den = nearestPosition num' den' := by
  rw [← nearestPosition_mul num den hden', ← nearestPosition_mul num' den' hden, h,
    Nat.mul_comm den den']

theorem log2_eq {n k : Nat} (hlow : twoTo k ≤ n) (hhigh : n < twoTo (k + 1)) : n.log2 = k := by
  have hne : n ≠ 0 := by
    have hpos := twoTo_pos k
    omega
  have hle : k ≤ n.log2 := (Nat.le_log2 hne).mpr hlow
  have hlt : n.log2 < k + 1 := (Nat.log2_lt hne).mpr hhigh
  omega

/-- A magnitude is nearest to itself. -/
theorem nearestPosition_quantaAt (position : Nat) :
    nearestPosition (quantaAt position) 1 = position := by
  unfold nearestPosition quantaAt
  dsimp only
  rw [Nat.div_one, Nat.one_mul]
  split
  · next hsmall =>
      -- There the step is one quantum.
      have hscale : position.log2 - 52 = 0 := by
        rcases Nat.eq_zero_or_pos position with rfl | hpos
        · decide
        · have hlt : position.log2 < 52 := (Nat.log2_lt (Nat.ne_of_gt hpos)).mpr hsmall
          omega
      rw [hscale, show twoTo 0 = 1 from rfl, roundHalfEven_one, Nat.zero_mul, Nat.zero_add]
  · next hlarge =>
      have hblock : 0 < position / twoTo 52 :=
        Nat.div_pos (Nat.le_of_not_lt hlarge) (twoTo_pos 52)
      have hplace : position % twoTo 52 < twoTo 52 := Nat.mod_lt _ (twoTo_pos 52)
      have hposition := Nat.div_add_mod position (twoTo 52)
      generalize position / twoTo 52 = block at *
      generalize position % twoTo 52 = place at *
      -- The significand has 53 bits, so the step is that of the block.
      have hlog : ((twoTo 52 + place) * twoTo (block - 1)).log2 = 52 + (block - 1) := by
        refine log2_eq ?_ ?_
        · rw [twoTo_add]
          exact Nat.mul_le_mul_right _ (Nat.le_add_right _ _)
        · rw [show 52 + (block - 1) + 1 = 53 + (block - 1) by omega, twoTo_add]
          refine Nat.mul_lt_mul_of_pos_right ?_ (twoTo_pos _)
          rw [twoTo_succ 52]
          omega
      have hround := roundHalfEven_mul (twoTo 52 + place) 1 (twoTo_pos (block - 1))
      rw [Nat.one_mul, roundHalfEven_one] at hround
      rw [hlog, show 52 + (block - 1) - 52 = block - 1 by omega, hround, ← hposition,
        show block = block - 1 + 1 by omega, Nat.mul_add, Nat.mul_one]
      simp only [Nat.add_sub_cancel]
      rw [Nat.mul_comm, Nat.add_assoc]

/-- Only zero has no quanta. -/
theorem quantaAt_pos {position : Nat} (h : 0 < position) : 0 < quantaAt position := by
  unfold quantaAt
  split
  · exact h
  · exact Nat.mul_pos (Nat.add_pos_left (twoTo_pos 52) _) (twoTo_pos _)

/-- Finite magnitudes are below two to the 1024th. -/
theorem quantaAt_lt {position : Nat} (h : position < finiteMagnitudes) :
    quantaAt position < twoTo 1024 * quantaPerOne := by
  unfold quantaAt
  have hbound : twoTo 1024 * quantaPerOne = twoTo 53 * twoTo 2045 := by decide +kernel
  rw [hbound]
  split
  · next hsmall =>
      refine Nat.lt_of_lt_of_le hsmall ?_
      decide +kernel
  · have hblock : position / twoTo 52 < 2047 := (Nat.div_lt_iff_lt_mul (twoTo_pos 52)).mpr h
    have hplace : position % twoTo 52 < twoTo 52 := Nat.mod_lt _ (twoTo_pos 52)
    have hsteps : twoTo 52 + position % twoTo 52 < twoTo 53 := by
      rw [twoTo_succ 52]
      omega
    have hstep : twoTo (position / twoTo 52 - 1) ≤ twoTo 2045 := twoTo_le_twoTo (by omega)
    exact Nat.lt_of_lt_of_le (Nat.mul_lt_mul_of_pos_right hsteps (twoTo_pos _))
      (Nat.mul_le_mul_left _ hstep)

/-- The exact expansion of a magnitude has more digits than are ever tried. -/
theorem lt_digitCount_expansion {position : Nat} (h : 0 < position) :
    750 < digitCount (expansion (quantaAt position)) := by
  refine lt_digitCount (Nat.le_trans ?_ (Nat.le_mul_of_pos_left _ (quantaAt_pos h)))
  decide +kernel

/-- The sign is kept and has no influence on anything else. -/
theorem ofRatio_sign (num den : Nat) :
    (∃ position, ∀ negative, ofRatio negative num den = .finite negative position) ∨
      ∀ negative, ofRatio negative num den = .infinite negative := by
  by_cases h : nearestPosition num den < finiteMagnitudes
  · exact Or.inl ⟨⟨_, h⟩, fun _ => dif_pos h⟩
  · exact Or.inr fun _ => dif_neg h

/-- The number nearest to a finite magnitude. -/
theorem ofRatio_eq_finite {negative : Bool} {num den : Nat} {position : Fin finiteMagnitudes}
    (hden : 0 < den) (h : num = quantaAt position * den) :
    ofRatio negative num den = .finite negative position := by
  have hposition : nearestPosition num den = position := by
    rw [nearestPosition_congr hden Nat.one_pos (by rw [h, Nat.mul_one]),
      nearestPosition_quantaAt]
  unfold ofRatio
  rw [dif_pos (by rw [hposition]; exact position.isLt)]
  simp only [hposition]

end Binary64

namespace Decimal

theorem toBinary64_zero (negative : Bool) (e : Int) :
    (finite negative 0 e).toBinary64 = .zero negative := by
  simp only [toBinary64, if_true]

/-- Zeros can be moved between the coefficient and the exponent. -/
theorem toBinary64_mul_tenTo (negative : Bool) (c k : Nat) (e : Int) :
    (finite negative (c * tenTo k) (e - k)).toBinary64 = (finite negative c e).toBinary64 := by
  rcases Nat.eq_zero_or_pos c with rfl | hc
  · rw [Nat.zero_mul, toBinary64_zero, toBinary64_zero]
  · have hck : 0 < c * tenTo k := Nat.mul_pos hc (tenTo_pos k)
    have horder : e - k + (digitCount (c * tenTo k) : Nat) = e + (digitCount c : Nat) := by
      rw [digitCount_mul_tenTo hc]
      omega
    simp only [toBinary64, horder, if_neg (Nat.ne_of_gt hc), if_neg (Nat.ne_of_gt hck)]
    -- The two ratios are the same, whichever sign the exponents have.
    have hratio : Binary64.nearestPosition
          (c * tenTo k * tenTo (e - k).toNat * Binary64.quantaPerOne) (tenTo (-(e - k)).toNat)
        = Binary64.nearestPosition (c * tenTo e.toNat * Binary64.quantaPerOne)
            (tenTo (-e).toNat) := by
      refine Binary64.nearestPosition_congr (tenTo_pos _) (tenTo_pos _) ?_
      have hpowers : tenTo k * tenTo (e - k).toNat * tenTo (-e).toNat
          = tenTo e.toNat * tenTo (-(e - k)).toNat := by
        rw [← tenTo_add, ← tenTo_add, ← tenTo_add]
        congr 1
        omega
      calc c * tenTo k * tenTo (e - k).toNat * Binary64.quantaPerOne * tenTo (-e).toNat
          = c * (tenTo k * tenTo (e - k).toNat * tenTo (-e).toNat) * Binary64.quantaPerOne := by
            simp only [Nat.mul_assoc, Nat.mul_comm Binary64.quantaPerOne]
        _ = c * (tenTo e.toNat * tenTo (-(e - k)).toNat) * Binary64.quantaPerOne := by
            rw [hpowers]
        _ = c * tenTo e.toNat * Binary64.quantaPerOne * tenTo (-(e - k)).toNat := by
            simp only [Nat.mul_assoc, Nat.mul_comm Binary64.quantaPerOne]
    simp only [Binary64.ofRatio, hratio]

/-- The sign is kept and has no influence on anything else. -/
theorem toBinary64_sign (c : Nat) (e : Int) :
    (∃ position, ∀ negative, (finite negative c e).toBinary64 = .finite negative position) ∨
      ∀ negative, (finite negative c e).toBinary64 = .infinite negative := by
  unfold toBinary64
  dsimp only
  by_cases hzero : c = 0
  · refine Or.inl ⟨⟨0, by decide⟩, fun negative => ?_⟩
    rw [if_pos hzero]
    rfl
  · by_cases hlarge : tooLarge < e + digitCount c
    · refine Or.inr fun negative => ?_
      rw [if_neg hzero, if_pos hlarge]
    · by_cases hsmall : e + digitCount c < tooSmall
      · refine Or.inl ⟨⟨0, by decide⟩, fun negative => ?_⟩
        rw [if_neg hzero, if_neg hlarge, if_pos hsmall]
        rfl
      · simp only [if_neg hzero, if_neg hlarge, if_neg hsmall]
        exact Binary64.ofRatio_sign _ _

theorem toBinary64_of_sign {sign sign' negative : Bool} {c : Nat} {e : Int}
    {position : Fin finiteMagnitudes}
    (h : (finite sign c e).toBinary64 = .finite sign' position) :
    (finite negative c e).toBinary64 = .finite negative position := by
  rcases toBinary64_sign c e with ⟨position', hfinite⟩ | hinfinite
  · rw [hfinite, Binary64.finite.injEq] at h
    rw [hfinite, h.2]
  · rw [hinfinite] at h
    exact absurd h (by simp only [reduceCtorEq, not_false_eq_true])

/-- The number nearest to a decimal whose order of magnitude is in the binary
    range. -/
theorem toBinary64_of_order {negative : Bool} {c : Nat} {e : Int} (hc : 0 < c)
    (hsmall : tooSmall ≤ e + digitCount c) (hlarge : e + digitCount c ≤ tooLarge) :
    (finite negative c e).toBinary64
      = .ofRatio negative (c * tenTo e.toNat * Binary64.quantaPerOne) (tenTo (-e).toNat) := by
  simp only [toBinary64, if_neg (Nat.ne_of_gt hc), if_neg (Int.not_lt.mpr hlarge),
    if_neg (Int.not_lt.mpr hsmall)]

/-- The exact expansion of a magnitude reads back. -/
theorem toBinary64_expansion {position : Fin finiteMagnitudes} (h : 0 < position.val) :
    (finite false (Binary64.expansion (Binary64.quantaAt position)) (-1074)).toBinary64
      = .finite false position := by
  have hpos := Binary64.quantaAt_pos h
  have hlt := Binary64.quantaAt_lt position.isLt
  have hfive : 0 < Nat.pow 5 1074 := by decide +kernel
  -- The expansion has at least 751 digits and at most 1383.
  have hlow := Binary64.lt_digitCount_expansion h
  have hhigh : digitCount (Binary64.expansion (Binary64.quantaAt position)) ≤ 1382 + 1 := by
    refine digitCount_le (Nat.lt_of_lt_of_le (Nat.mul_lt_mul_of_pos_right hlt hfive) ?_)
    decide +kernel
  have hexpansion : 0 < Binary64.expansion (Binary64.quantaAt position) := Nat.mul_pos hpos hfive
  rw [toBinary64_of_order hexpansion (by rw [tooSmall]; omega) (by rw [tooLarge]; omega)]
  refine Binary64.ofRatio_eq_finite (tenTo_pos _) ?_
  have hpowers : Nat.pow 5 1074 * (tenTo 0 * Binary64.quantaPerOne) = tenTo 1074 := by
    decide +kernel
  calc Binary64.quantaAt position * Nat.pow 5 1074 * tenTo 0 * Binary64.quantaPerOne
      = Binary64.quantaAt position * (Nat.pow 5 1074 * (tenTo 0 * Binary64.quantaPerOne)) := by
        simp only [Nat.mul_assoc]
    _ = Binary64.quantaAt position * tenTo 1074 := congrArg _ hpowers

end Decimal

namespace Binary64

/-- A neighbour that is accepted reads back, also where its last digits carry. -/
theorem toBinary64_of_neighbour {position : Fin finiteMagnitudes}
    {coefficient digits length : Nat} {d : Decimal}
    (h : neighbour? position coefficient digits length = some d) :
    ∃ c e, d = .finite false c e ∧ (Decimal.finite false c e).toBinary64 = .finite false position := by
  unfold neighbour? at h
  extract_lets dropped unit exponent below above readsBack chosen at h
  have hreads : ∀ c, readsBack c = true →
      (Decimal.finite false c exponent).toBinary64 = .finite false position := by
    intro c hc
    dsimp only [readsBack] at hc
    split at hc
    · next negative p hp =>
        have heq : p = position := Fin.ext (beq_iff_eq.mp hc)
        rw [heq] at hp
        exact Decimal.toBinary64_of_sign hp
    · exact absurd hc Bool.false_ne_true
  have hchosen : ∀ c, readsBack c = true → some (chosen c) = some d →
      ∃ c e, d = .finite false c e ∧
        (Decimal.finite false c e).toBinary64 = .finite false position := by
    intro c hc hd
    have hc := hreads c hc
    rw [← Option.some.inj hd]
    dsimp only [chosen]
    split
    · next hcarry =>
        -- A carry through all digits leaves a one, with the zeros in the exponent.
        have hshift := Decimal.toBinary64_mul_tenTo false 1 length (exponent + length)
        rw [Nat.one_mul, Int.add_sub_cancel, ← hcarry, hc] at hshift
        exact ⟨1, exponent + length, rfl, hshift.symm⟩
    · exact ⟨c, exponent, rfl, hc⟩
  clear_value readsBack chosen
  split at h
  · next hbelow =>
      split at h
      · next habove =>
          refine hchosen _ ?_ h
          -- The nearer of two neighbours is one of them.
          rcases roundHalfEven_eq_or coefficient unit with hround | hround
          · rw [hround]
            exact hbelow
          · rw [hround]
            exact habove
      · exact hchosen _ hbelow h
  · split at h
    · next habove => exact hchosen _ habove h
    · exact absurd h (by simp only [reduceCtorEq, not_false_eq_true])

/-- The shortest decimal of a magnitude reads back. -/
theorem toBinary64_shortest {position : Fin finiteMagnitudes} (h : 0 < position.val) :
    ∃ c e, shortest position = .finite false c e ∧
      (Decimal.finite false c e).toBinary64 = .finite false position := by
  unfold shortest
  dsimp only
  cases hfound : ((List.range sufficientDigits).map (· + 1)).findSome?
      (neighbour? position (expansion (quantaAt position))
        (digitCount (expansion (quantaAt position)))) with
  | none => exact ⟨_, _, rfl, Decimal.toBinary64_expansion h⟩
  | some d =>
      -- Whichever length it was found at, it was accepted because it reads back.
      rcases List.exists_of_findSome?_eq_some hfound with ⟨length, _, hneighbour⟩
      exact toBinary64_of_neighbour hneighbour

/-- What a finite number is written as reads back. -/
theorem toBinary64_toDecimal (negative : Bool) (position : Fin finiteMagnitudes) :
    ∃ c e, (Binary64.finite negative position).toDecimal = .finite negative c e ∧
      (Decimal.finite negative c e).toBinary64 = .finite negative position := by
  unfold toDecimal
  dsimp only
  split
  · next hzero =>
      have hposition : position = ⟨0, by decide⟩ := Fin.ext hzero
      rw [hposition]
      exact ⟨0, 0, rfl, rfl⟩
  · next hpos =>
      rcases toBinary64_shortest (Nat.pos_of_ne_zero hpos) with ⟨c, e, hshortest, hreads⟩
      rw [hshortest]
      exact ⟨c, e, rfl, Decimal.toBinary64_of_sign hreads⟩

/-- So does the integer that a number is. -/
theorem toBinary64_quotient {negative : Bool} {position : Fin finiteMagnitudes}
    (h : (Binary64.finite negative position).isInteger = true) :
    (Decimal.finite negative (quantaAt position / quantaPerOne) 0).toBinary64
      = .finite negative position := by
  have hwhole : quantaAt position / quantaPerOne * quantaPerOne = quantaAt position :=
    Nat.div_mul_cancel (Nat.dvd_of_mod_eq_zero (beq_iff_eq.mp h))
  have hone : 0 < quantaPerOne := twoTo_pos 1074
  have hlt : quantaAt position / quantaPerOne < twoTo 1024 :=
    (Nat.div_lt_iff_lt_mul hone).mpr (quantaAt_lt position.isLt)
  rcases Nat.eq_zero_or_pos (quantaAt position / quantaPerOne) with hzero | hpos
  · -- Only zero has no quanta.
    rw [hzero, Nat.zero_mul] at hwhole
    have hposition : position = ⟨0, by decide⟩ := by
      refine Fin.ext (Nat.eq_zero_of_not_pos fun hpos => ?_)
      have hquanta := quantaAt_pos hpos
      omega
    rw [hzero, hposition]
    rfl
  · have hdigits : digitCount (quantaAt position / quantaPerOne) ≤ 308 + 1 := by
      refine digitCount_le (Nat.lt_of_lt_of_le hlt ?_)
      decide +kernel
    rw [Decimal.toBinary64_of_order hpos (by rw [Decimal.tooSmall]; omega)
      (by rw [Decimal.tooLarge]; omega)]
    refine ofRatio_eq_finite (tenTo_pos _) ?_
    rw [show (0 : Int).toNat = 0 from rfl, show (-0 : Int).toNat = 0 from rfl,
      show tenTo 0 = 1 from rfl, Nat.mul_one, Nat.mul_one, hwhole]

end Binary64

end PathScript
