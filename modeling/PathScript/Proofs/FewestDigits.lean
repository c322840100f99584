import PathScript.Proofs.DecimalValue

/-!
# The Fewest Digits

A number is written with as few digits as identify it. The search tries lengths in
increasing order and looks only at the two decimals of each length around the
number. That is enough. If some decimal of a length reads back, then the neighbour
on its side lies between it and the number, or is it, and larger magnitudes go to
larger positions. A decimal with fewer digits is no exception, since it is one of
the length as well or is below the power of ten at which the length begins.

So nothing that reads back is shorter than what is found. Seventeen digits always
suffice: the nearest decimal of that length is off by a part in two times ten to the
sixteenth at most, and numbers are further apart. And fifteen digits can always be
told apart, unless the number is so small that its digits are fewer: two decimals
of fifteen digits are further apart than two numbers, so that only one of them
goes to a given number.

## Theorems

* `Binary64.shortest_of_neighbour`: The search stops no later than at a length that
  has a neighbour that reads back.
* `Binary64.exists_neighbour`: A length at which some decimal reads back has one.
* `Binary64.coefficient_toDecimal_lt`: No decimal that reads back is shorter.
* `Binary64.coefficient_toDecimal_lt_seventeen`: Seventeen digits suffice.
* `Binary64.eq_of_positionOf_eq`: Fifteen digits can be told apart.
-/

namespace PathScript

namespace Binary64

/-- A neighbour that is accepted is no longer than the length that was tried. -/
theorem coefficient_of_neighbour {position coefficient digits length : Nat} {d : Decimal}
    (hcoefficient : coefficient < tenTo digits) (hlength : 0 < length)
    (h : neighbour? position coefficient digits length = some d) :
    ∃ c e, d = .finite false c e ∧ c < tenTo length := by
  -- What is left of the coefficient has so many digits.
  have hbelow : coefficient / tenTo (digits - length) < tenTo length := by
    rw [Nat.div_lt_iff_lt_mul (tenTo_pos _), ← tenTo_add]
    exact Nat.lt_of_lt_of_le hcoefficient (Nat.pow_le_pow_right (by decide) (by omega))
  have hround := roundHalfEven_eq_or coefficient (tenTo (digits - length))
  have hone : 1 < tenTo length := (tenTo_lt_tenTo (m := 0)).mpr hlength
  unfold neighbour? at h
  extract_lets dropped unit exponent below above readsBack chosen at h
  have hchosen : ∀ c, c ≤ below + 1 → some (chosen c) = some d →
      ∃ c e, d = .finite false c e ∧ c < tenTo length := by
    intro c hc hd
    rw [← Option.some.inj hd]
    dsimp only [chosen]
    split
    · exact ⟨1, _, rfl, hone⟩
    · next hcarry =>
        -- Without a carry the neighbour above is within the length too.
        have hle : c ≤ tenTo length := Nat.le_trans hc hbelow
        exact ⟨c, _, rfl, by omega⟩
  clear_value readsBack chosen
  split at h
  · split at h
    · refine hchosen _ ?_ h
      rcases hround with heq | heq
      · exact Nat.le_trans (Nat.le_of_eq heq) (Nat.le_succ _)
      · exact Nat.le_of_eq heq
    · exact hchosen _ (Nat.le_succ _) h
  · split at h
    · exact hchosen _ (Nat.le_refl _) h
    · cases h

/-- A neighbour that reads back is found. -/
theorem neighbour?_ne_none {position : Fin finiteMagnitudes}
    {coefficient digits length c : Nat}
    (hc : c = coefficient / tenTo (digits - length) ∨
      c = coefficient / tenTo (digits - length) + 1)
    (hreads : (Decimal.finite false c (((digits - length : Nat) : Int) - 1074)).toBinary64
      = .finite false position) :
    neighbour? position coefficient digits length ≠ none := by
  unfold neighbour?
  extract_lets dropped unit exponent below above readsBack chosen
  have hfound : readsBack c = true := by
    simp only [readsBack, exponent, dropped, hreads, beq_self_eq_true]
  clear_value readsBack chosen
  rcases hc with hc | hc
  · have hbelow : readsBack below = true := by
      rw [← hfound, hc]
    rw [if_pos hbelow]
    split <;> exact Option.some_ne_none _
  · have habove : readsBack above = true := by
      rw [← hfound, hc]
    rw [if_pos habove]
    split <;> exact Option.some_ne_none _

/-- The search stops no later than at a length at which there is something to find. -/
theorem shortest_of_neighbour {position length : Nat} (hlow : 0 < length)
    (hhigh : length ≤ sufficientDigits)
    (hfound : neighbour? position (expansion (quantaAt position))
      (digitCount (expansion (quantaAt position))) length ≠ none) :
    ∃ c e, shortest position = .finite false c e ∧ c < tenTo length := by
  unfold shortest
  dsimp only
  have hcoefficient := lt_tenTo_digitCount (expansion (quantaAt position))
  generalize hsearch : neighbour? position (expansion (quantaAt position))
    (digitCount (expansion (quantaAt position))) = search at *
  have hmem : length ∈ (List.range sufficientDigits).map (· + 1) :=
    List.mem_map.mpr ⟨length - 1, List.mem_range.mpr (by omega), by omega⟩
  have hsorted : ((List.range sufficientDigits).map (· + 1)).Pairwise (· < ·) :=
    List.pairwise_map.mpr (List.pairwise_lt_range.imp fun h => Nat.succ_lt_succ h)
  cases hfirst : ((List.range sufficientDigits).map (· + 1)).findSome? search with
  | none => exact absurd (List.findSome?_eq_none_iff.mp hfirst length hmem) hfound
  | some d =>
      -- Lengths before the one at which it stops have nothing to find.
      rcases List.findSome?_eq_some_iff.mp hfirst with ⟨before, first, rest, hsplit, hd, hnone⟩
      rw [hsplit] at hmem hsorted
      have hle : first ≤ length := by
        rcases List.mem_append.mp hmem with hbefore | hrest
        · exact absurd (hnone length hbefore) hfound
        · rcases List.mem_cons.mp hrest with heq | hrest
          · exact Nat.le_of_eq heq.symm
          · have hordered := (List.pairwise_append.mp hsorted).2.1
            exact Nat.le_of_lt ((List.pairwise_cons.mp hordered).1 length hrest)
      have hpositive : 0 < first := by
        have hmem : first ∈ (List.range sufficientDigits).map (· + 1) := by
          rw [hsplit]
          exact List.mem_append_right _ List.mem_cons_self
        rcases List.mem_map.mp hmem with ⟨k, _, rfl⟩
        exact Nat.succ_pos k
      rw [← hsearch] at hd
      rcases coefficient_of_neighbour hcoefficient hpositive hd with ⟨c, e, rfl, hc⟩
      exact ⟨c, e, rfl, Nat.lt_of_lt_of_le hc (Nat.pow_le_pow_right (by decide) hle)⟩

/-- The exact expansion of a magnitude denotes it. -/
theorem magnitudeAt_eq_expansion (p : Nat) :
    magnitudeAt p = expansion (quantaAt p) * 10 ^ (-1074 : ℤ) := by
  have hnat : Nat.pow 5 1074 * quantaPerOne = tenTo 1074 := by decide +kernel
  have hfive : 0 < Nat.pow 5 1074 := by decide +kernel
  have hten : (10 : ℚ) ^ (-1074 : ℤ) = (tenTo 1074 : ℚ)⁻¹ := by
    rw [zpow_neg, zpow_ofNat, tenTo_cast]
  rw [magnitudeAt, expansion, hten, ← hnat]
  generalize Nat.pow 5 1074 = five at hfive ⊢
  have hone := quantaPerOne_pos
  have hpositive : (0 : ℚ) < five := Nat.cast_pos.mpr hfive
  rw [Nat.cast_mul, Nat.cast_mul]
  field_simp

/-- No decimal of a length lies between the two neighbours of that length. -/
theorem outside_neighbours {coefficient dropped length : Nat} (hlength : 0 < length)
    (hfirst : tenTo (dropped + length - 1) ≤ coefficient) {v : ℚ} (hv : 0 ≤ v)
    (hwithin : WithinDigits length v) (e : ℤ) :
    v ≤ (coefficient / tenTo dropped : Nat) * 10 ^ (dropped + e) ∨
      (coefficient / tenTo dropped + 1 : Nat) * 10 ^ (dropped + e) ≤ v := by
  have hunit := ten_zpow_pos (dropped + e)
  have hbelow : tenTo (length - 1) ≤ coefficient / tenTo dropped := by
    rw [Nat.le_div_iff_mul_le (tenTo_pos dropped), ← tenTo_add,
      show length - 1 + dropped = dropped + length - 1 by omega]
    exact hfirst
  generalize coefficient / tenTo dropped = below at *
  by_cases hlarge : 10 ^ (dropped + e + length - 1) ≤ |v|
  · -- It is a multiple of the unit, like the neighbours.
    rcases hwithin.exists_multiple hlarge with ⟨n, rfl⟩
    by_cases hle : n ≤ below
    · left
      have hcast : (n : ℚ) ≤ below := by exact_mod_cast hle
      exact mul_le_mul_of_nonneg_right hcast hunit.le
    · right
      have hcast : ((below + 1 : Nat) : ℚ) ≤ n := by
        have hlt : ((below + 1 : Nat) : ℤ) ≤ n := by
          push_cast
          omega
        exact_mod_cast hlt
      exact mul_le_mul_of_nonneg_right hcast hunit.le
  · -- It is below the power of ten at which the length begins.
    left
    rw [abs_of_nonneg hv, not_le] at hlarge
    have hcast : (10 : ℚ) ^ ((length - 1 : Nat) : ℤ) ≤ below := by
      rw [zpow_natCast, ← tenTo_cast]
      exact Nat.cast_le.mpr hbelow
    calc v ≤ 10 ^ (dropped + e + length - 1) := hlarge.le
      _ = 10 ^ ((length - 1 : Nat) : ℤ) * 10 ^ (dropped + e) := by
          rw [← zpow_add₀ (by norm_num)]
          congr 1
          omega
      _ ≤ below * 10 ^ (dropped + e) := mul_le_mul_of_nonneg_right hcast hunit.le

/-- A decimal lies between its neighbours of any length. -/
theorem between_neighbours (coefficient dropped : Nat) (e : ℤ) :
    (coefficient / tenTo dropped : Nat) * 10 ^ (dropped + e) ≤ (coefficient : ℚ) * 10 ^ e ∧
      (coefficient : ℚ) * 10 ^ e
        ≤ (coefficient / tenTo dropped + 1 : Nat) * 10 ^ (dropped + e) := by
  have hunit : (10 : ℚ) ^ (dropped + e) = tenTo dropped * 10 ^ e := by
    rw [zpow_add₀ (by norm_num), zpow_natCast, tenTo_cast]
  have hlow := Nat.div_mul_le_self coefficient (tenTo dropped)
  have hhigh := Nat.lt_div_mul_add (a := coefficient) (tenTo_pos dropped)
  rw [hunit, ← mul_assoc, ← mul_assoc, ← Nat.cast_mul, ← Nat.cast_mul]
  refine ⟨mul_le_mul_of_nonneg_right (Nat.cast_le.mpr hlow) (ten_zpow_pos e).le,
    mul_le_mul_of_nonneg_right (Nat.cast_le.mpr ?_) (ten_zpow_pos e).le⟩
  rw [Nat.add_mul, Nat.one_mul]
  exact hhigh.le

/-- A length at which some decimal reads back has a neighbour that does. -/
theorem exists_neighbour {p : Fin finiteMagnitudes} (hp : 0 < p.val) {length : Nat}
    (hlow : 0 < length) (hhigh : length ≤ sufficientDigits) {v : ℚ} (hv : 0 ≤ v)
    (hwithin : WithinDigits length v) (hposition : positionOf v = p) :
    neighbour? p (expansion (quantaAt p)) (digitCount (expansion (quantaAt p))) length ≠ none := by
  have hmany := lt_digitCount_expansion hp
  have hpositive : 0 < expansion (quantaAt p) := Nat.mul_pos (quantaAt_pos hp) (by decide +kernel)
  have hfirst := tenTo_le_of_digitCount hpositive
  have hmagnitude := magnitudeAt_eq_expansion p
  have hitself := positionOf_magnitudeAt p
  rw [sufficientDigits] at hhigh
  generalize expansion (quantaAt p) = coefficient at *
  obtain ⟨dropped, hdropped⟩ : ∃ dropped, digitCount coefficient - length = dropped := ⟨_, rfl⟩
  have hbetween := between_neighbours coefficient dropped (-1074)
  have hnonneg : ∀ c : Nat, (0 : ℚ) ≤ c * 10 ^ ((dropped : ℤ) + -1074) :=
    fun c => mul_nonneg (Nat.cast_nonneg c) (ten_zpow_pos _).le
  rw [← hmagnitude] at hbetween
  -- A decimal whose position is that of the number is found if it is a neighbour.
  have hfind : ∀ c, (c = coefficient / tenTo dropped ∨ c = coefficient / tenTo dropped + 1) →
      positionOf (c * 10 ^ ((dropped : ℤ) + -1074)) = p →
        neighbour? p coefficient (digitCount coefficient) length ≠ none := by
    intro c hc hreads
    rw [← hdropped] at hc
    refine neighbour?_ne_none hc ?_
    rw [Decimal.toBinary64_eq_atPosition, Decimal.value_false, hdropped, Int.sub_eq_add_neg, hreads]
    exact dif_pos p.isLt
  have hmono : ∀ {v w : ℚ}, 0 ≤ v → v ≤ w → positionOf v ≤ positionOf w := by
    intro v w hv hle
    exact positionOf_mono (by rwa [abs_of_nonneg hv, abs_of_nonneg (hv.trans hle)])
  have hstart : tenTo (dropped + length - 1) ≤ coefficient := by
    rw [show dropped + length - 1 = digitCount coefficient - 1 by omega]
    exact hfirst
  rcases outside_neighbours hlow hstart hv hwithin (-1074) with hbelow | habove
  · refine hfind _ (Or.inl rfl) (Nat.le_antisymm ?_ ?_)
    · have hle := hmono (hnonneg _) hbetween.1
      omega
    · have hle := hmono hv hbelow
      omega
  · refine hfind _ (Or.inr rfl) (Nat.le_antisymm ?_ ?_)
    · have hle := hmono (hnonneg _) habove
      omega
    · have hle := hmono (magnitudeAt_nonneg p) hbetween.2
      omega

theorem eq_of_atPosition {s t : Bool} {position : Nat} {p : Fin finiteMagnitudes}
    (h : atPosition s position = .finite t p) : position = p := by
  unfold atPosition at h
  split at h
  · rw [← (Binary64.finite.inj h).2]
  · cases h

/-- What a number is written as goes to its position. -/
theorem positionOf_toDecimal (s : Bool) (p : Fin finiteMagnitudes) :
    positionOf (Binary64.finite s p).toDecimal.value = p := by
  rcases toBinary64_toDecimal s p with ⟨c, e, hdecimal, hreads⟩
  rw [Decimal.toBinary64_eq_atPosition] at hreads
  rw [hdecimal]
  exact eq_of_atPosition hreads

/-- No decimal that reads back is shorter than what a number is written as. -/
theorem coefficient_toDecimal_lt {length : Nat} (hlow : 0 < length)
    (hhigh : length ≤ sufficientDigits) {v : ℚ} (hwithin : WithinDigits length v) (s : Bool)
    {p : Fin finiteMagnitudes} (hposition : positionOf v = p) :
    ∃ c e, (Binary64.finite s p).toDecimal = .finite s c e ∧ c < tenTo length := by
  unfold toDecimal
  dsimp only
  split
  · exact ⟨0, 0, rfl, tenTo_pos length⟩
  · next hzero =>
      have hfound := exists_neighbour (Nat.pos_of_ne_zero hzero) hlow hhigh (abs_nonneg v)
        hwithin.abs ((positionOf_abs v).trans hposition)
      rcases shortest_of_neighbour hlow hhigh hfound with ⟨c, e, hshortest, hc⟩
      rw [hshortest]
      exact ⟨c, e, rfl, hc⟩

/-- The nearest decimal of seventeen digits reads back. -/
theorem positionOf_roundSignificant {p : Nat} (hp : 0 < p) :
    positionOf (roundSignificant 17 (magnitudeAt p)) = p := by
  have hpositive : 0 < magnitudeAt p :=
    div_pos (Nat.cast_pos.mpr (quantaAt_pos hp)) quantaPerOne_pos
  have hmoved := abs_sub_roundSignificant_le 17 (magnitudeAt p)
  have hfirst := zpow_log_le hpositive
  rw [abs_of_pos hpositive] at hmoved
  generalize roundSignificant 17 (magnitudeAt p) = v at *
  generalize Int.log 10 (magnitudeAt p) = order at *
  -- The unit is a part in ten to the sixteenth of the number at most.
  have hunit : (10 : ℚ) ^ order = 10 ^ 16 * 10 ^ (order + 1 - (17 : Nat)) := by
    rw [← zpow_natCast, ← zpow_add₀ (by norm_num)]
    congr 1
    push_cast
    omega
  have hunitpos := ten_zpow_pos (order + 1 - (17 : Nat))
  refine positionOf_eq_of_close ?_
  have hmagnitudes := abs_abs_sub_abs_le v (magnitudeAt p)
  rw [abs_of_pos hpositive, abs_sub_comm v] at hmagnitudes
  generalize (10 : ℚ) ^ (order + 1 - (17 : Nat)) = unit at *
  linarith

/-- Seventeen digits suffice. -/
theorem coefficient_toDecimal_lt_seventeen (s : Bool) (p : Fin finiteMagnitudes) :
    ∃ c e, (Binary64.finite s p).toDecimal = .finite s c e ∧ c < tenTo 17 := by
  by_cases hp : p.val = 0
  · refine ⟨0, 0, ?_, tenTo_pos 17⟩
    simp only [toDecimal, hp, if_true]
  · exact coefficient_toDecimal_lt (by decide) (Nat.le_refl _)
      (withinDigits_roundSignificant (by decide) _) s
      (positionOf_roundSignificant (Nat.pos_of_ne_zero hp))

/-- Two decimals that are close for their digits are equal: a difference is at least
    one in the last place of the longer one. -/
theorem eq_of_close {digits : ℕ} {c d e f : ℤ} {distance : ℚ} (horder : e ≤ f)
    (hc : |c| < 10 ^ digits) (hclose : |(c : ℚ) * 10 ^ e - d * 10 ^ f| ≤ distance)
    (hlarge : 10 ^ digits * distance ≤ |(c : ℚ) * 10 ^ e|) :
    (c : ℚ) * 10 ^ e = d * 10 ^ f := by
  have hunit := ten_zpow_pos e
  obtain ⟨k, hk⟩ : ∃ k : ℕ, f = e + k := ⟨(f - e).toNat, by omega⟩
  have hsame : (d : ℚ) * 10 ^ f = (d * 10 ^ k : ℤ) * 10 ^ e := by
    rw [hk, zpow_add₀ (by norm_num), zpow_natCast]
    push_cast
    ring
  rw [hsame] at hclose ⊢
  by_cases heq : c = d * 10 ^ k
  · rw [heq]
  · -- Otherwise the longer one would have too many digits.
    have hapart : (1 : ℚ) ≤ |((c - d * 10 ^ k : ℤ) : ℚ)| := by
      exact_mod_cast Int.one_le_abs (sub_ne_zero.mpr heq)
    have hcast : |(c : ℚ)| < 10 ^ digits := by exact_mod_cast hc
    have hpower : (0 : ℚ) < 10 ^ digits := by positivity
    rw [← sub_mul, abs_mul, abs_of_pos hunit, ← Int.cast_sub] at hclose
    rw [abs_mul, abs_of_pos hunit] at hlarge
    have hdistance : (10 : ℚ) ^ e ≤ distance := by
      have hscaled := mul_le_mul_of_nonneg_right hapart hunit.le
      linarith
    have hbound := mul_lt_mul_of_pos_right hcast hunit
    have hproduct := mul_le_mul_of_nonneg_left hdistance hpower.le
    linarith

/-- Numbers that go to one position beyond the first block are close to each other. -/
theorem close_of_positionOf {p : Nat} (hp : twoTo 52 ≤ p) {v w : ℚ} (hv : positionOf v = p)
    (hw : positionOf w = p) :
    |(|v| - |w|)| ≤ spacingAt p ∧ (2 ^ 52 - 1) * spacingAt p ≤ |v| := by
  have hpositive : 0 < p := Nat.lt_of_lt_of_le (twoTo_pos 52) hp
  obtain ⟨q, rfl⟩ : ∃ q, p = q + 1 := ⟨p - 1, by omega⟩
  -- Both lie between the midpoints around the magnitude.
  have hlow := midpoint_le_of_positionOf hv
  have hlow' := midpoint_le_of_positionOf hw
  have hhigh := le_midpoint_positionOf v
  have hhigh' := le_midpoint_positionOf w
  rw [hv] at hhigh
  rw [hw] at hhigh'
  have hbefore := magnitudeAt_succ q
  have hafter := magnitudeAt_succ (q + 1)
  have hlarge := le_magnitudeAt hp
  have hspacing : spacingAt q ≤ spacingAt (q + 1) :=
    div_le_div_of_nonneg_right (Nat.cast_le.mpr (twoTo_le_twoTo
      (Nat.sub_le_sub_right (Nat.div_le_div_right (Nat.le_succ q)) 1))) quantaPerOne_pos.le
  refine ⟨abs_le.mpr ⟨?_, ?_⟩, ?_⟩ <;> linarith

/-- Fifteen digits can be told apart beyond the first block. -/
theorem eq_of_positionOf_eq {p : Nat} (hp : twoTo 52 ≤ p) {v w : ℚ} (hv : 0 ≤ v) (hw : 0 ≤ w)
    (hdigits : WithinDigits 15 v) (hdigits' : WithinDigits 15 w) (hposition : positionOf v = p)
    (hposition' : positionOf w = p) : v = w := by
  rcases close_of_positionOf hp hposition hposition' with ⟨hclose, hlarge⟩
  rcases close_of_positionOf hp hposition' hposition with ⟨hclose', hlarge'⟩
  rw [abs_of_nonneg hv, abs_of_nonneg hw] at hclose hclose'
  have hspacing := spacingAt_pos p
  rcases hdigits with ⟨c, e, hc, rfl⟩
  rcases hdigits' with ⟨d, f, hd, rfl⟩
  -- The one with more places is too large for a difference in its last place.
  rcases le_total e f with horder | horder
  · exact eq_of_close horder hc hclose (by linarith)
  · exact (eq_of_close horder hd hclose' (by linarith)).symm

end Binary64

end PathScript
