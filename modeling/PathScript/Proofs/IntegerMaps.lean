import PathScript.Proofs.SingleRounding

/-!
# Maps of Integers

As long as the numbers are integers below ten to the fifteenth, maps are the maps of
linear algebra. Such an integer is a binary number and is written as itself: it has
fifteen digits at most, and no other decimal of so few digits goes to the same
number. Products and sums of these integers have fewer than fifty digits, so they
are exact, and a result below ten to the fifteenth loses nothing to rounding either.

So composing two maps and then applying the composite comes to the same as applying
one after the other, as it does for integers, although the two are rounded at
different places.

## Main definitions

* `IntegerMap`, `IntegerPoint`: Maps and points with integers for entries.
* `Matrix.IsIntegral`, `Point.IsIntegral`: Maps and points of numbers that are
  integers.
* `IntegerMap.Moderate`, `IntegerPoint.Moderate`, `Binary64.IsModerate`: Integers
  below ten to the fifteenth.

## Theorems

* `Binary64.written_of_toInt?`: An integer is written as itself.
* `Binary64.toInt?_ofRat`: The number nearest to an integer is that integer.
* `IntegerMap.image_mul`: Applying an exact product.
* `Matrix.exists_mul?_isIntegral`, `Matrix.exists_image?_isIntegral`: Exact
  composites and images.
* `integer_maps_exact`: Composing and applying.
-/

namespace PathScript

/-- An affine map with integer entries, sending `(x, y)` to
    `(a x + c y + tx, b x + d y + ty)`. -/
structure IntegerMap where
  a : ℤ
  b : ℤ
  c : ℤ
  d : ℤ
  tx : ℤ
  ty : ℤ

/-- A point with integer coordinates. -/
structure IntegerPoint where
  x : ℤ
  y : ℤ

namespace IntegerMap

/-- The exact image of a point. -/
def image (m : IntegerMap) (p : IntegerPoint) : IntegerPoint where
  x := m.a * p.x + m.c * p.y + m.tx
  y := m.b * p.x + m.d * p.y + m.ty

/-- The exact product: the map that applies `m` and then `n`. -/
def mul (m n : IntegerMap) : IntegerMap where
  a := m.a * n.a + m.b * n.c
  b := m.a * n.b + m.b * n.d
  c := m.c * n.a + m.d * n.c
  d := m.c * n.b + m.d * n.d
  tx := m.tx * n.a + m.ty * n.c + n.tx
  ty := m.tx * n.b + m.ty * n.d + n.ty

/-- Applying a product is applying its factors one after the other. -/
theorem image_mul (m n : IntegerMap) (p : IntegerPoint) :
    (m.mul n).image p = n.image (m.image p) := by
  simp only [image, mul, IntegerPoint.mk.injEq]
  constructor <;> ring

/-- A map whose entries are below ten to the fifteenth. -/
structure Moderate (m : IntegerMap) : Prop where
  a : |m.a| < 10 ^ 15
  b : |m.b| < 10 ^ 15
  c : |m.c| < 10 ^ 15
  d : |m.d| < 10 ^ 15
  tx : |m.tx| < 10 ^ 15
  ty : |m.ty| < 10 ^ 15

end IntegerMap

/-- A point whose coordinates are below ten to the fifteenth. -/
structure IntegerPoint.Moderate (p : IntegerPoint) : Prop where
  x : |p.x| < 10 ^ 15
  y : |p.y| < 10 ^ 15

/-- A map whose entries are the given integers; the sign of zero does not matter. -/
structure Matrix.IsIntegral (m : Matrix) (exact : IntegerMap) : Prop where
  a : m.a.toInt? = some exact.a
  b : m.b.toInt? = some exact.b
  c : m.c.toInt? = some exact.c
  d : m.d.toInt? = some exact.d
  tx : m.tx.toInt? = some exact.tx
  ty : m.ty.toInt? = some exact.ty

/-- A point whose coordinates are the given integers. -/
structure Point.IsIntegral (p : Point) (exact : IntegerPoint) : Prop where
  x : p.x.toInt? = some exact.x
  y : p.y.toInt? = some exact.y

namespace Binary64

/-- A number is an integer just if it is finite and has the quanta and the sign of it. -/
theorem toInt?_eq_some_iff {x : Binary64} {n : ℤ} : x.toInt? = some n ↔
    ∃ s p, x = .finite s p ∧ quantaAt p = n.natAbs * quantaPerOne ∧ signed s n.natAbs = n := by
  have hone : 0 < quantaPerOne := twoTo_pos 1074
  constructor
  · intro h
    unfold toInt? at h
    split at h
    · next hinteger =>
        cases x with
        | finite s p =>
            have hwhole : quantaAt p / quantaPerOne * quantaPerOne = quantaAt p :=
              Nat.div_mul_cancel (Nat.dvd_of_mod_eq_zero (beq_iff_eq.mp hinteger))
            have hsigned : signed s (quantaAt p / quantaPerOne) = n := Option.some.inj h
            have habs : n.natAbs = quantaAt p / quantaPerOne := by
              rw [← hsigned, natAbs_signed]
            exact ⟨s, p, rfl, by rw [habs, hwhole], by rw [habs, hsigned]⟩
        | infinite s => cases h
        | nan => cases h
    · cases h
  · rintro ⟨s, p, rfl, hquanta, hsigned⟩
    have hinteger : (Binary64.finite s p).isInteger = true := by
      rw [isInteger, hquanta, Nat.mul_mod_left]
      rfl
    rw [toInt?, if_pos hinteger, truncate?, hquanta, Nat.mul_div_cancel _ hone, hsigned]

theorem isFinite_of_toInt? {x : Binary64} {n : ℤ} (h : x.toInt? = some n) : x.isFinite = true := by
  rcases toInt?_eq_some_iff.mp h with ⟨s, p, rfl, _, _⟩
  rfl

/-- Numbers that are the same integer are equal. -/
theorem eq_of_toInt? {x y : Binary64} {n : ℤ} (hx : x.toInt? = some n) (hy : y.toInt? = some n) :
    x.eq y = true := by
  have hplace : ∀ {z : Binary64}, z.toInt? = some n → z.place? = some (n * quantaPerOne) := by
    intro z hz
    rcases toInt?_eq_some_iff.mp hz with ⟨s, p, rfl, hquanta, hsigned⟩
    rw [place?, hquanta, signed_mul, hsigned]
  exact eq_of_place (hplace hx) (hplace hy)

/-- Every integer of at most 53 bits is a magnitude. -/
theorem exists_quantaAt {n : ℕ} (hn : n < twoTo 53) :
    ∃ p : Fin finiteMagnitudes, quantaAt p = n * quantaPerOne := by
  by_cases hzero : n = 0
  · exact ⟨⟨0, by decide⟩, by rw [hzero, Nat.zero_mul]; rfl⟩
  · -- Doubled until it has 53 bits, the integer is a count of steps of a smaller scale.
    have hlog : n.log2 < 53 := (Nat.log2_lt hzero).mpr hn
    obtain ⟨shift, hshift⟩ : ∃ shift, n.log2 + shift = 52 := ⟨52 - n.log2, by omega⟩
    have hlow : twoTo 52 ≤ n * twoTo shift := by
      rw [← hshift, twoTo_add]
      exact Nat.mul_le_mul_right _ (Nat.log2_self_le hzero)
    have hhigh : n * twoTo shift < twoTo 53 := by
      rw [← show n.log2 + 1 + shift = 53 by omega, twoTo_add]
      exact Nat.mul_lt_mul_of_pos_right Nat.lt_log2_self (twoTo_pos shift)
    have hbound : (1074 - shift) * twoTo 52 + n * twoTo shift < finiteMagnitudes := by
      have hscale : (1074 - shift) * twoTo 52 ≤ 1074 * twoTo 52 :=
        Nat.mul_le_mul_right _ (Nat.sub_le 1074 shift)
      have htop : twoTo 53 = twoTo 52 * 2 := twoTo_succ 52
      rw [finiteMagnitudes]
      omega
    refine ⟨⟨_, hbound⟩, ?_⟩
    rw [quantaAt_scaled (Or.inr hlow) (Nat.le_of_lt hhigh), Nat.mul_assoc, ← twoTo_add,
      show shift + (1074 - shift) = 1074 by omega, quantaPerOne]

/-- An integer goes to the position at which it is the magnitude. -/
theorem positionOf_intCast {n : ℤ} {p : ℕ} (h : quantaAt p = n.natAbs * quantaPerOne) :
    positionOf n = p := by
  have hterms : |(n : ℚ)| = (n.natAbs : ℕ) / (1 : ℕ) := by
    rw [Nat.cast_one, div_one, Nat.cast_natAbs, Int.cast_abs]
  rw [positionOf_eq Nat.one_pos hterms, ← h, nearestPosition_quantaAt]

theorem withinDigits_intCast {n : ℤ} (h : |n| < 10 ^ 15) : WithinDigits 15 n :=
  ⟨n, 0, h, by rw [zpow_zero, mul_one]⟩

/-- Integers other than zero are far beyond the first block. -/
theorem le_of_quantaAt {n p : ℕ} (hn : 0 < n) (h : quantaAt p = n * quantaPerOne) :
    twoTo 52 ≤ p := by
  by_contra hsmall
  have hfirst := quantaAt_le (Nat.le_of_not_le hsmall)
  have hblock : quantaAt (twoTo 52) = twoTo 52 := by decide +kernel
  have hone : twoTo 53 ≤ quantaPerOne := twoTo_le_twoTo (by decide)
  have htop : twoTo 53 = twoTo 52 * 2 := twoTo_succ 52
  have hwhole : quantaPerOne ≤ n * quantaPerOne := Nat.le_mul_of_pos_left _ hn
  omega

/-- An integer is written as itself. -/
theorem written_of_toInt? {x : Binary64} {n : ℤ} (hx : x.toInt? = some n) (hn : |n| < 10 ^ 15) :
    x.written = n := by
  rcases toInt?_eq_some_iff.mp hx with ⟨s, p, rfl, hquanta, hsigned⟩
  have hposition := positionOf_intCast hquanta
  have hwithin := withinDigits_intCast hn
  by_cases hzero : n = 0
  · have hp : p.val = 0 := by
      rw [hzero, Int.natAbs_zero, Nat.zero_mul] at hquanta
      by_contra hne
      exact absurd hquanta (Nat.ne_of_gt (quantaAt_pos (Nat.pos_of_ne_zero hne)))
    have hdecimal : (Binary64.finite s p).toDecimal = .finite s 0 0 := if_pos hp
    rw [written, hdecimal, hzero]
    cases s <;> simp [Decimal.value, signed]
  · -- Here fifteen digits can be told apart.
    have hlarge := le_of_quantaAt (Int.natAbs_pos.mpr hzero) hquanta
    rcases coefficient_toDecimal_lt (by decide) (by decide) hwithin s hposition with
      ⟨c, e, hdecimal, hc⟩
    have hreads := positionOf_toDecimal s p
    rw [hdecimal] at hreads
    have hmagnitude : |(Decimal.finite s c e).value| = |(n : ℚ)| :=
      eq_of_positionOf_eq hlarge (abs_nonneg _) (abs_nonneg _)
        (Decimal.withinDigits_value hc s e).abs hwithin.abs
        ((positionOf_abs _).trans hreads) ((positionOf_abs _).trans hposition)
    have hcast : |(n : ℚ)| = n.natAbs := by rw [Nat.cast_natAbs, Int.cast_abs]
    rw [Decimal.abs_value, hcast] at hmagnitude
    rw [written, hdecimal]
    nth_rewrite 1 [← hsigned]
    cases s with
    | false => rw [Decimal.value_false, hmagnitude]; rfl
    | true => rw [Decimal.value_true, Decimal.value_false, hmagnitude]; simp [signed]

/-- The number nearest to an integer is that integer. -/
theorem toInt?_ofRat {n : ℤ} (hn : |n| < 10 ^ 15) : (ofRat n).toInt? = some n := by
  have hbits : n.natAbs < twoTo 53 := by
    have hlt : 10 ^ 15 < twoTo 53 := by decide
    have habs := Int.abs_eq_natAbs n
    omega
  rcases exists_quantaAt hbits with ⟨p, hquanta⟩
  refine toInt?_eq_some_iff.mpr ⟨decide ((n : ℚ) < 0), p, ?_, hquanta, ?_⟩
  · rw [ofRat, positionOf_intCast hquanta]
    exact dif_pos p.isLt
  · refine signed_natAbs fun _ => ?_
    rw [decide_eq_true_iff]
    exact_mod_cast Iff.rfl

/-- A number that is the given integer, which is below ten to the fifteenth. -/
structure IsModerate (x : Binary64) (n : ℤ) : Prop where
  toInt? : x.toInt? = some n
  lt : |n| < 10 ^ 15

theorem IsModerate.written {x : Binary64} {n : ℤ} (h : x.IsModerate n) : x.written = n :=
  written_of_toInt? h.toInt? h.lt

end Binary64

namespace Matrix

/-- A sum of integers that is rounded once is exact if it is below ten to the fifteenth. -/
theorem RoundsOnce.toInt? {terms : List ℚ} {x : Binary64} (h : RoundsOnce terms x)
    (hterms : ∀ t ∈ terms, ∃ c : ℤ, |c| < 10 ^ 49 ∧ t = c) {n : ℤ} (hsum : terms.sum = n)
    (hn : |n| < 10 ^ 15) : x.toInt? = some n := by
  have hscale : OneScale terms := by
    refine ⟨0, fun t ht => ?_⟩
    rw [zpow_zero]
    simpa only [mul_one] using hterms t ht
  have hresult := h hscale
  rw [hsum, keptDigits, roundSignificant_eq_self (Binary64.withinDigits_intCast hn)] at hresult
  rw [hresult]
  exact Binary64.toInt?_ofRat hn

/-- A product of integers is a term that is small enough for sums to be exact. -/
theorem exists_term_mul {p q : Binary64} {i j : ℤ} (hp : p.IsModerate i) (hq : q.IsModerate j) :
    ∃ c : ℤ, |c| < 10 ^ 49 ∧ p.written * q.written = c := by
  refine ⟨i * j, ?_, by rw [hp.written, hq.written, Int.cast_mul]⟩
  have hproduct := mul_lt_mul'' hp.lt hq.lt (abs_nonneg i) (abs_nonneg j)
  rw [abs_mul]
  linarith

/-- So is an integer. -/
theorem exists_term {t : Binary64} {n : ℤ} (ht : t.IsModerate n) :
    ∃ c : ℤ, |c| < 10 ^ 49 ∧ t.written = c :=
  ⟨n, ht.lt.trans (by norm_num), ht.written⟩

section

variable {p q r s t x : Binary64} {i j k l n : ℤ} (hp : p.IsModerate i) (hq : q.IsModerate j)
  (hr : r.IsModerate k) (hs : s.IsModerate l)
include hp hq hr hs

/-- A linear entry of integers is exact. -/
theorem toInt?_of_linear (h : RoundsOnce [p.written * q.written, r.written * s.written] x)
    (hsum : |i * j + k * l| < 10 ^ 15) : x.toInt? = some (i * j + k * l) := by
  refine h.toInt? (List.forall_mem_cons.mpr ⟨exists_term_mul hp hq,
    List.forall_mem_singleton.mpr (exists_term_mul hr hs)⟩) ?_ hsum
  rw [List.sum_cons, List.sum_singleton, hp.written, hq.written, hr.written, hs.written]
  push_cast
  rfl

/-- An entry or a coordinate with a translation is exact. -/
theorem toInt?_of_affine (ht : t.IsModerate n)
    (h : RoundsOnce [p.written * q.written, r.written * s.written, t.written] x)
    (hsum : |i * j + k * l + n| < 10 ^ 15) : x.toInt? = some (i * j + k * l + n) := by
  refine h.toInt? (List.forall_mem_cons.mpr ⟨exists_term_mul hp hq, List.forall_mem_cons.mpr
    ⟨exists_term_mul hr hs, List.forall_mem_singleton.mpr (exists_term ht)⟩⟩) ?_ hsum
  rw [List.sum_cons, List.sum_cons, List.sum_singleton, hp.written, hq.written, hr.written,
    hs.written, ht.written]
  push_cast
  ring

end

/-- Every entry is a finite number. -/
theorem IsIntegral.isFinite {m : Matrix} {exact : IntegerMap} (h : m.IsIntegral exact) :
    ∀ x ∈ m.toList, x.isFinite = true :=
  forall_toList.mpr ⟨Binary64.isFinite_of_toInt? h.a, Binary64.isFinite_of_toInt? h.b,
    Binary64.isFinite_of_toInt? h.c, Binary64.isFinite_of_toInt? h.d,
    Binary64.isFinite_of_toInt? h.tx, Binary64.isFinite_of_toInt? h.ty⟩

/-- The image of an integer point under a map of integers is exact. -/
theorem exists_image?_isIntegral {m : Matrix} {p : Point} {exact : IntegerMap}
    {point : IntegerPoint} (hm : m.IsIntegral exact) (hp : p.IsIntegral point)
    (hentries : exact.Moderate) (hpoint : point.Moderate) (himage : (exact.image point).Moderate) :
    ∃ image, m.image? p = some image ∧ image.IsIntegral (exact.image point) := by
  rcases exists_image?_roundsOnce hm.isFinite (Binary64.isFinite_of_toInt? hp.x)
    (Binary64.isFinite_of_toInt? hp.y) with ⟨image, hexists, honce⟩
  refine ⟨image, hexists, ?_, ?_⟩
  · exact toInt?_of_affine ⟨hm.a, hentries.a⟩ ⟨hp.x, hpoint.x⟩ ⟨hm.c, hentries.c⟩
      ⟨hp.y, hpoint.y⟩ ⟨hm.tx, hentries.tx⟩ honce.x himage.x
  · exact toInt?_of_affine ⟨hm.b, hentries.b⟩ ⟨hp.x, hpoint.x⟩ ⟨hm.d, hentries.d⟩
      ⟨hp.y, hpoint.y⟩ ⟨hm.ty, hentries.ty⟩ honce.y himage.y

/-- The composite of maps of integers is exact. -/
theorem exists_mul?_isIntegral {m n : Matrix} {first second : IntegerMap}
    (hm : m.IsIntegral first) (hn : n.IsIntegral second) (hfirst : first.Moderate)
    (hsecond : second.Moderate) (hproduct : (first.mul second).Moderate) :
    ∃ k, m.mul? n = some k ∧ k.IsIntegral (first.mul second) := by
  rcases exists_mul?_roundsOnce hm.isFinite hn.isFinite with ⟨k, hexists, honce⟩
  refine ⟨k, hexists, ?_, ?_, ?_, ?_, ?_, ?_⟩
  · exact toInt?_of_linear ⟨hm.a, hfirst.a⟩ ⟨hn.a, hsecond.a⟩ ⟨hm.b, hfirst.b⟩ ⟨hn.c, hsecond.c⟩
      honce.a hproduct.a
  · exact toInt?_of_linear ⟨hm.a, hfirst.a⟩ ⟨hn.b, hsecond.b⟩ ⟨hm.b, hfirst.b⟩ ⟨hn.d, hsecond.d⟩
      honce.b hproduct.b
  · exact toInt?_of_linear ⟨hm.c, hfirst.c⟩ ⟨hn.a, hsecond.a⟩ ⟨hm.d, hfirst.d⟩ ⟨hn.c, hsecond.c⟩
      honce.c hproduct.c
  · exact toInt?_of_linear ⟨hm.c, hfirst.c⟩ ⟨hn.b, hsecond.b⟩ ⟨hm.d, hfirst.d⟩ ⟨hn.d, hsecond.d⟩
      honce.d hproduct.d
  · exact toInt?_of_affine ⟨hm.tx, hfirst.tx⟩ ⟨hn.a, hsecond.a⟩ ⟨hm.ty, hfirst.ty⟩
      ⟨hn.c, hsecond.c⟩ ⟨hn.tx, hsecond.tx⟩ honce.tx hproduct.tx
  · exact toInt?_of_affine ⟨hm.tx, hfirst.tx⟩ ⟨hn.b, hsecond.b⟩ ⟨hm.ty, hfirst.ty⟩
      ⟨hn.d, hsecond.d⟩ ⟨hn.ty, hsecond.ty⟩ honce.ty hproduct.ty

end Matrix

/-- Maps of integers are exact and compose. Let two maps and a point have integers below
    ten to the fifteenth for entries, and let the entries of the exact product and the
    coordinates of the exact images under the first map and under both be below that too.
    Then the composite is the exact product, and applying it gives what applying the one
    map after the other gives, which is the exact image. -/
theorem integer_maps_exact (m n : Matrix) (p : Point) (first second : IntegerMap)
    (point : IntegerPoint) (hm : m.IsIntegral first) (hn : n.IsIntegral second)
    (hp : p.IsIntegral point) (hfirst : first.Moderate) (hsecond : second.Moderate)
    (hpoint : point.Moderate) (hproduct : (first.mul second).Moderate)
    (himage : (first.image point).Moderate)
    (himage' : (second.image (first.image point)).Moderate) :
    ∃ k, m.mul? n = some k ∧ k.IsIntegral (first.mul second) ∧
      ∃ q r r', m.image? p = some q ∧ n.image? q = some r ∧ k.image? p = some r' ∧
        r.IsIntegral (second.image (first.image point)) ∧
        r'.x.eq r.x = true ∧ r'.y.eq r.y = true := by
  rcases Matrix.exists_mul?_isIntegral hm hn hfirst hsecond hproduct with ⟨k, hk, hintegral⟩
  rcases Matrix.exists_image?_isIntegral hm hp hfirst hpoint himage with ⟨q, hq, hq'⟩
  rcases Matrix.exists_image?_isIntegral hn hq' hsecond himage himage' with ⟨r, hr, hr'⟩
  -- The composite has the same exact image.
  have hboth := IntegerMap.image_mul first second point
  rcases Matrix.exists_image?_isIntegral hintegral hp hproduct hpoint (hboth ▸ himage') with
    ⟨r', happlied, happlied'⟩
  rw [hboth] at happlied'
  exact ⟨k, hk, hintegral, q, r, r', hq, hr, happlied, hr',
    Binary64.eq_of_toInt? happlied'.x hr'.x, Binary64.eq_of_toInt? happlied'.y hr'.y⟩

/-- Entries whose product is just below the bound, and a negative zero among them. -/
theorem integer_maps_exact_near_bound :
    let first : IntegerMap := ⟨31622776, -7, 0, 1, -9, 999999999999000⟩
    let second : IntegerMap := ⟨31622776, 0, 1, 1, -999999999999999, 3⟩
    let m : Matrix := ⟨.ofInt 31622776, .ofInt (-7), .zero true, .ofInt 1, .ofInt (-9),
      .ofInt 999999999999000⟩
    let n : Matrix := ⟨.ofInt 31622776, .zero true, .ofInt 1, .ofInt 1,
      .ofInt (-999999999999999), .ofInt 3⟩
    let p : Point := ⟨.ofInt 1, .ofInt (-2)⟩
    ∃ k, m.mul? n = some k ∧ k.IsIntegral (first.mul second) ∧
      ∃ q r r', m.image? p = some q ∧ n.image? q = some r ∧ k.image? p = some r' ∧
        r.IsIntegral (second.image (first.image ⟨1, -2⟩)) ∧
        r'.x.eq r.x = true ∧ r'.y.eq r.y = true := by
  intro first second m n p
  have hm : m.IsIntegral first := by constructor <;> decide +kernel
  have hn : n.IsIntegral second := by constructor <;> decide +kernel
  have hp : p.IsIntegral ⟨1, -2⟩ := by constructor <;> decide +kernel
  refine integer_maps_exact m n p first second ⟨1, -2⟩ hm hn hp ?_ ?_ ?_ ?_ ?_ ?_ <;>
    constructor <;> decide

end PathScript
