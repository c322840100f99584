import PathScript.Proofs.FewestDigits

/-!
# Maps Round Once

The arithmetic of maps looks as if it rounded at every step: each product and each
sum is cut to fifty digits, the result to fifteen, and that is rounded once more to
become a binary number. But a number is written in seventeen digits at most, so a
product needs thirty-four and is never cut. A sum can be: its terms may be so far
apart that no fifty digits hold them all. If they are multiples of one power of ten,
with coefficients of at most forty-nine digits, then so are their sums, with one
digit more. What is left is the exact value of the formula, rounded to fifteen
digits and then to the nearest binary number.

## Main definitions

* `Binary64.written`: The rational number that a number is written as.
* `Matrix.OneScale`: Terms that are moderate multiples of one power of ten.
* `Matrix.RoundsOnce`: A result that is rounded once if its terms have one scale.

## Theorems

* `Matrix.value_product`: Products are exact.
* `Matrix.value_sumOfProducts`: So are sums of terms that have one scale.
* `Matrix.settle_eq`: What becomes of an exact result.
* `maps_round_once`: The entries of composites and the coordinates of images.
-/

namespace PathScript

theorem WithinDigits.mono {digits more : ℕ} {v : ℚ} (h : WithinDigits digits v)
    (hle : digits ≤ more) : WithinDigits more v := by
  rcases h with ⟨c, e, hc, hv⟩
  exact ⟨c, e, hc.trans_le (pow_le_pow_right₀ (by norm_num) hle), hv⟩

/-- A product needs no more digits than its factors together. -/
theorem WithinDigits.mul {digits digits' : ℕ} {v w : ℚ} (hv : WithinDigits digits v)
    (hw : WithinDigits digits' w) : WithinDigits (digits + digits') (v * w) := by
  rcases hv with ⟨c, e, hc, rfl⟩
  rcases hw with ⟨d, f, hd, rfl⟩
  refine ⟨c * d, e + f, ?_, ?_⟩
  · rw [abs_mul, pow_add]
    exact mul_lt_mul'' hc hd (abs_nonneg c) (abs_nonneg d)
  · rw [zpow_add₀ (by norm_num)]
    push_cast
    ring

/-- Rounding to some digits keeps the sign. -/
theorem roundSignificant_lt_zero_iff {digits : ℕ} (hdigits : 0 < digits) {v : ℚ} :
    roundSignificant digits v < 0 ↔ v < 0 := by
  simp only [roundSignificant]
  generalize hexponent : Int.log 10 |v| + 1 - digits = exponent
  have hunit := ten_zpow_pos exponent
  have hmoved := abs_le.mp (abs_sub_nearestInteger_le (v / 10 ^ exponent))
  have hsign : v / 10 ^ exponent < 0 ↔ v < 0 := by
    rw [div_lt_iff₀ hunit, zero_mul]
  rw [mul_neg_iff]
  constructor
  · rintro (⟨_, hneg⟩ | ⟨hneg, _⟩)
    · linarith
    · -- An integer below zero is at least one below.
      have hle : (nearestInteger (v / 10 ^ exponent) : ℚ) ≤ -1 := by
        have hneg' : nearestInteger (v / 10 ^ exponent) < 0 := by exact_mod_cast hneg
        exact_mod_cast Int.le_sub_one_of_lt hneg'
      exact hsign.mp (by linarith)
  · intro hneg
    -- The number reaches its first digit, which is not rounded away.
    have hlarge : v / 10 ^ exponent ≤ -1 := by
      have hfirst := zpow_log_le (abs_pos.mpr (ne_of_lt hneg))
      have hle : (10 : ℚ) ^ exponent ≤ 10 ^ Int.log 10 |v| :=
        zpow_le_zpow_right₀ (by norm_num) (by omega)
      rw [abs_of_neg hneg] at hfirst hle
      rw [div_le_iff₀ hunit]
      linarith
    exact Or.inr ⟨by linarith, hunit⟩

/-- The rational number that a number is written as. -/
def Binary64.written (x : Binary64) : ℚ := x.toDecimal.value

/-- A finite number is written in at most seventeen digits. -/
theorem Binary64.exists_toDecimal {x : Binary64} (hx : x.isFinite = true) :
    ∃ s c e, x.toDecimal = .finite s c e ∧ c < tenTo 17 := by
  cases x with
  | finite s p => exact ⟨s, coefficient_toDecimal_lt_seventeen s p⟩
  | infinite s => exact absurd hx Bool.false_ne_true
  | nan => exact absurd hx Bool.false_ne_true

theorem Binary64.withinDigits_written {x : Binary64} (hx : x.isFinite = true) :
    WithinDigits 17 x.written := by
  rcases exists_toDecimal hx with ⟨s, c, e, hdecimal, hc⟩
  rw [written, hdecimal]
  exact Decimal.withinDigits_value hc s e

namespace Matrix

/-- What becomes of a result of decimal arithmetic. -/
theorem settle_eq {d : Decimal} (hd : d.isFinite = true) :
    settle d = .ofRat (roundSignificant keptDigits d.value) := by
  cases d with
  | nan => exact absurd hd Bool.false_ne_true
  | infinite s => exact absurd hd Bool.false_ne_true
  | finite s c e =>
      have hvalue : (Decimal.finite (s && c != 0) c e).value = (Decimal.finite s c e).value := by
        by_cases hc : c = 0
        · simp [Decimal.value, signed, hc]
        · rw [bne_iff_ne.mpr hc, Bool.and_true]
      -- Without its sign on zero a decimal is negative just if what it denotes is.
      have hsign : decide (roundSignificant keptDigits (Decimal.finite s c e).value < 0)
          = (s && c != 0) := by
        rw [Bool.eq_iff_iff, decide_eq_true_iff, roundSignificant_lt_zero_iff (by decide),
          Decimal.value_lt_zero_iff, Bool.and_eq_true, bne_iff_ne]
      rw [Binary64.ofRat, hsign, ← hvalue, ← Decimal.value_round (by decide)]
      exact Decimal.toBinary64_eq_atPosition _ _ _

/-- The product of two numbers is exact. -/
theorem value_product {x y : Binary64} (hx : x.isFinite = true) (hy : y.isFinite = true) :
    ∃ z, Decimal.mul? workingDigits x.toDecimal y.toDecimal = some z ∧ z.isFinite = true ∧
      z.value = x.written * y.written := by
  rcases Decimal.value_mul? (show 0 < workingDigits by decide) (Binary64.isFinite_toDecimal hx)
    (Binary64.isFinite_toDecimal hy) with ⟨z, hz, hfinite, hvalue⟩
  have hwithin := (Binary64.withinDigits_written hx).mul (Binary64.withinDigits_written hy)
  rw [← Binary64.written, ← Binary64.written,
    roundSignificant_eq_self (hwithin.mono (by decide))] at hvalue
  exact ⟨z, hz, hfinite, hvalue⟩

/-- Terms that are multiples of one power of ten, with coefficients of at most forty-nine
    digits. -/
def OneScale (terms : List ℚ) : Prop :=
  ∃ q : ℤ, ∀ t ∈ terms, ∃ c : ℤ, |c| < 10 ^ 49 ∧ t = c * 10 ^ q

/-- A result that is the sum of its terms, rounded to the digits that are kept and then to
    the nearest number, if the terms have one scale. -/
def RoundsOnce (terms : List ℚ) (result : Binary64) : Prop :=
  OneScale terms → result = .ofRat (roundSignificant keptDigits terms.sum)

/-- The image of a point under a map, each coordinate rounded once. -/
structure ImageRoundsOnce (m : Matrix) (p image : Point) : Prop where
  x : RoundsOnce [m.a.written * p.x.written, m.c.written * p.y.written, m.tx.written] image.x
  y : RoundsOnce [m.b.written * p.x.written, m.d.written * p.y.written, m.ty.written] image.y

/-- One map after another, each entry rounded once. -/
structure ProductRoundsOnce (m n k : Matrix) : Prop where
  a : RoundsOnce [m.a.written * n.a.written, m.b.written * n.c.written] k.a
  b : RoundsOnce [m.a.written * n.b.written, m.b.written * n.d.written] k.b
  c : RoundsOnce [m.c.written * n.a.written, m.d.written * n.c.written] k.c
  d : RoundsOnce [m.c.written * n.b.written, m.d.written * n.d.written] k.d
  tx : RoundsOnce [m.tx.written * n.a.written, m.ty.written * n.c.written, n.tx.written] k.tx
  ty : RoundsOnce [m.tx.written * n.b.written, m.ty.written * n.d.written, n.ty.written] k.ty

/-- Fewer terms have one scale too. -/
theorem OneScale.subset {terms fewer : List ℚ} (h : OneScale terms) (hsubset : fewer ⊆ terms) :
    OneScale fewer := by
  rcases h with ⟨q, hterms⟩
  exact ⟨q, fun t ht => hterms t (hsubset ht)⟩

/-- The sum of fewer than ten terms that have one scale needs no rounding. -/
theorem OneScale.withinDigits_sum {terms : List ℚ} (h : OneScale terms)
    (hlength : terms.length < 10) : WithinDigits workingDigits terms.sum := by
  rcases h with ⟨q, hterms⟩
  -- The coefficient of the sum grows by at most the bound with each term.
  have hsum : ∃ c : ℤ, |c| ≤ terms.length * 10 ^ 49 ∧ terms.sum = c * 10 ^ q := by
    clear hlength
    induction terms with
    | nil => exact ⟨0, by simp, by simp⟩
    | cons t terms ih =>
        rcases hterms t List.mem_cons_self with ⟨c, hc, ht⟩
        rcases ih fun u hu => hterms u (List.mem_cons_of_mem _ hu) with ⟨d, hd, hrest⟩
        refine ⟨c + d, ?_, ?_⟩
        · have htriangle := abs_add_le c d
          rw [List.length_cons]
          push_cast
          linarith
        · rw [List.sum_cons, ht, hrest]
          push_cast
          ring
  rcases hsum with ⟨c, hc, hsum⟩
  refine ⟨c, q, ?_, hsum⟩
  have hcount : (terms.length : ℤ) ≤ 9 := by omega
  rw [workingDigits]
  linarith

/-- The sum of two decimals is exact if what they denote is the sum of terms that have
    one scale. -/
theorem value_sum {x y : Decimal} (hx : x.isFinite = true) (hy : y.isFinite = true)
    {terms : List ℚ} (hscale : OneScale terms) (hlength : terms.length < 10)
    (hsum : x.value + y.value = terms.sum) :
    ∃ z, Decimal.add? workingDigits x y = some z ∧ z.isFinite = true ∧ z.value = terms.sum := by
  rcases Decimal.value_add? (show 0 < workingDigits by decide) hx hy with ⟨z, hz, hfinite, hvalue⟩
  rw [hsum, roundSignificant_eq_self (hscale.withinDigits_sum hlength)] at hvalue
  exact ⟨z, hz, hfinite, hvalue⟩

section

variable {p q r s t : Binary64} (hp : p.isFinite = true) (hq : q.isFinite = true)
  (hr : r.isFinite = true) (hs : s.isFinite = true)
include hp hq hr hs

/-- A sum of products that have one scale is exact. -/
theorem value_sumOfProducts
    (hscale : OneScale [p.written * q.written, r.written * s.written]) :
    ∃ z, sumOfProducts? p q r s = some z ∧ z.isFinite = true ∧
      z.value = p.written * q.written + r.written * s.written := by
  rcases value_product hp hq with ⟨left, hleft, hfiniteLeft, hvalueLeft⟩
  rcases value_product hr hs with ⟨right, hright, hfiniteRight, hvalueRight⟩
  have hsum : left.value + right.value = [p.written * q.written, r.written * s.written].sum := by
    rw [hvalueLeft, hvalueRight, List.sum_cons, List.sum_singleton]
  rcases value_sum hfiniteLeft hfiniteRight hscale (by simp) hsum with ⟨z, hz, hfinite, hvalue⟩
  rw [List.sum_cons, List.sum_singleton] at hvalue
  refine ⟨z, ?_, hfinite, hvalue⟩
  exact Option.bind_eq_some_iff.mpr ⟨left, hleft, Option.bind_eq_some_iff.mpr ⟨right, hright, hz⟩⟩

/-- A linear entry is rounded once. -/
theorem exists_linear?_roundsOnce : ∃ x, linear? p q r s = some x ∧
    RoundsOnce [p.written * q.written, r.written * s.written] x := by
  rcases exists_linear? hp hq hr hs with ⟨x, hx⟩
  refine ⟨x, hx, fun hscale => ?_⟩
  rcases value_sumOfProducts hp hq hr hs hscale with ⟨sum, hsum, hfinite, hvalue⟩
  rw [linear?, hsum, Option.map_some, settle_eq hfinite, hvalue] at hx
  rw [← Option.some.inj hx, List.sum_cons, List.sum_singleton]

/-- An entry or a coordinate with a translation is rounded once. -/
theorem exists_affine?_roundsOnce (ht : t.isFinite = true) : ∃ x, affine? p q r s t = some x ∧
    RoundsOnce [p.written * q.written, r.written * s.written, t.written] x := by
  rcases exists_affine? hp hq hr hs t with ⟨x, hx⟩
  refine ⟨x, hx, fun hscale => ?_⟩
  -- The first sum is exact as well, since its terms are among the terms.
  rcases value_sumOfProducts hp hq hr hs (hscale.subset (by simp)) with
    ⟨sum, hsum, hfinite, hvalue⟩
  have htotal : sum.value + t.toDecimal.value
      = [p.written * q.written, r.written * s.written, t.written].sum := by
    rw [hvalue, List.sum_cons, List.sum_cons, List.sum_singleton, add_assoc]
    rfl
  rcases value_sum hfinite (Binary64.isFinite_toDecimal ht) hscale (by simp) htotal with
    ⟨total, hadd, hfiniteTotal, hvalueTotal⟩
  simp only [affine?, hsum, hadd, Option.bind_eq_bind, Option.bind_some, pure,
    settle_eq hfiniteTotal, hvalueTotal] at hx
  exact (Option.some.inj hx).symm

end

/-- A finite point has an image under a finite map, rounded once. -/
theorem exists_image?_roundsOnce {m : Matrix} {p : Point} (hm : ∀ x ∈ m.toList, x.isFinite = true)
    (hx : p.x.isFinite = true) (hy : p.y.isFinite = true) :
    ∃ image, m.image? p = some image ∧ ImageRoundsOnce m p image := by
  rcases forall_toList.mp hm with ⟨ha, hb, hc, hd, htx, hty⟩
  rcases exists_affine?_roundsOnce ha hx hc hy htx with ⟨x, hfirst, honce⟩
  rcases exists_affine?_roundsOnce hb hx hd hy hty with ⟨y, hsecond, honce'⟩
  refine ⟨⟨x, y⟩, ?_, honce, honce'⟩
  simp only [image?, hfirst, hsecond, Option.bind_eq_bind, Option.bind_some, pure]

/-- One finite map after another is a map, rounded once. -/
theorem exists_mul?_roundsOnce {m n : Matrix} (hm : ∀ x ∈ m.toList, x.isFinite = true)
    (hn : ∀ x ∈ n.toList, x.isFinite = true) :
    ∃ k, m.mul? n = some k ∧ ProductRoundsOnce m n k := by
  rcases forall_toList.mp hm with ⟨hma, hmb, hmc, hmd, hmtx, hmty⟩
  rcases forall_toList.mp hn with ⟨hna, hnb, hnc, hnd, hntx, hnty⟩
  rcases exists_linear?_roundsOnce hma hna hmb hnc with ⟨a, ha, honceA⟩
  rcases exists_linear?_roundsOnce hma hnb hmb hnd with ⟨b, hb, honceB⟩
  rcases exists_linear?_roundsOnce hmc hna hmd hnc with ⟨c, hc, honceC⟩
  rcases exists_linear?_roundsOnce hmc hnb hmd hnd with ⟨d, hd, honceD⟩
  rcases exists_affine?_roundsOnce hmtx hna hmty hnc hntx with ⟨tx, htx, honceTx⟩
  rcases exists_affine?_roundsOnce hmtx hnb hmty hnd hnty with ⟨ty, hty, honceTy⟩
  refine ⟨⟨a, b, c, d, tx, ty⟩, ?_, honceA, honceB, honceC, honceD, honceTx, honceTy⟩
  simp only [mul?, ha, hb, hc, hd, htx, hty, Option.bind_eq_bind, Option.bind_some, pure]

end Matrix

/-- Maps round once. A finite number is written in at most seventeen digits, and the
    product of any two is exact. Each coordinate of the image of a finite point under a
    finite map, and each entry of a composite of finite maps, exists. It is the exact sum
    of its two products and of its translation, if it has one, rounded to fifteen
    significant digits and then to the nearest number, provided that these terms are
    multiples of one power of ten with coefficients below ten to the 49th. -/
theorem maps_round_once :
    (∀ x : Binary64, x.isFinite = true →
      ∃ s c e, x.toDecimal = .finite s c e ∧ c < tenTo 17) ∧
    (∀ x y : Binary64, x.isFinite = true → y.isFinite = true →
      ∃ z, Decimal.mul? Matrix.workingDigits x.toDecimal y.toDecimal = some z ∧
        z.isFinite = true ∧ z.value = x.written * y.written) ∧
    (∀ (m : Matrix) (p : Point), (∀ x ∈ m.toList, x.isFinite = true) →
      p.x.isFinite = true → p.y.isFinite = true →
        ∃ image, m.image? p = some image ∧ Matrix.ImageRoundsOnce m p image) ∧
    (∀ m n : Matrix, (∀ x ∈ m.toList, x.isFinite = true) →
      (∀ x ∈ n.toList, x.isFinite = true) →
        ∃ k, m.mul? n = some k ∧ Matrix.ProductRoundsOnce m n k) := by
  refine ⟨fun x => Binary64.exists_toDecimal, fun x y => Matrix.value_product, ?_, ?_⟩
  · intro m p hm hx hy
    exact Matrix.exists_image?_roundsOnce hm hx hy
  · intro m n hm hn
    exact Matrix.exists_mul?_roundsOnce hm hn

/-- A tenth and two tenths are three tenths, and not the number next to it that binary
    arithmetic comes to. -/
theorem maps_round_once_tenths :
    let tenth := (Decimal.finite false 1 (-1)).toBinary64
    let fifth := (Decimal.finite false 2 (-1)).toBinary64
    let zero := Binary64.zero false
    let m : Matrix := ⟨tenth, zero, fifth, zero, zero, zero⟩
    let p : Point := ⟨.one, .one⟩
    ∃ image, m.image? p = some image ∧ image.x = .ofRat (3 / 10) ∧
      image.x ≠ tenth.add fifth := by
  intro tenth fifth zero m p
  have hfinite : (∀ x ∈ m.toList, x.isFinite = true) ∧ p.x.isFinite = true ∧
      p.y.isFinite = true := by decide +kernel
  rcases maps_round_once.2.2.1 m p hfinite.1 hfinite.2.1 hfinite.2.2 with ⟨image, himage, honce⟩
  have hdecimals : m.a.toDecimal = .finite false 1 (-1) ∧ m.c.toDecimal = .finite false 2 (-1) ∧
      m.tx.toDecimal = .finite false 0 0 ∧ p.x.toDecimal = .finite false 1 0 ∧
      p.y.toDecimal = .finite false 1 0 := by decide +kernel
  have hterms : [m.a.written * p.x.written, m.c.written * p.y.written, m.tx.written]
      = [1 * 10 ^ (-1 : ℤ), 2 * 10 ^ (-1 : ℤ), 0] := by
    simp only [Binary64.written, hdecimals, Decimal.value_false]
    norm_num
  have hscale : Matrix.OneScale [1 * 10 ^ (-1 : ℤ), 2 * 10 ^ (-1 : ℤ), 0] := by
    refine ⟨-1, List.forall_mem_cons.mpr ⟨⟨1, by norm_num, by norm_num⟩,
      List.forall_mem_cons.mpr ⟨⟨2, by norm_num, by norm_num⟩,
        List.forall_mem_singleton.mpr ⟨0, by norm_num, by norm_num⟩⟩⟩⟩
  have hsum : ([1 * 10 ^ (-1 : ℤ), 2 * 10 ^ (-1 : ℤ), 0] : List ℚ).sum = 3 / 10 := by norm_num
  have hwithin : WithinDigits Matrix.keptDigits (3 / 10) :=
    ⟨3, -1, by norm_num [Matrix.keptDigits], by norm_num⟩
  have hx := honce.x
  rw [hterms] at hx
  have hresult := hx hscale
  rw [hsum, roundSignificant_eq_self hwithin] at hresult
  refine ⟨image, himage, hresult, ?_⟩
  rw [hresult]
  decide +kernel

end PathScript
