import PathScript.Geometry.Matrix
import PathScript.Proofs.ReadBack

/-!
# Where Maps Have Values

Maps are computed in decimal arithmetic, in which some things have no result: an
infinity times zero, and the sum of opposite infinities. There is no other way to
get nothing, and no way at all to get something that is not a number out of
numbers.

So a map of numbers has numbers for its values, where it has values. And it has
one at every finite point unless an entry of it is infinite, since the products
and sums of finite decimals are finite. The arithmetic is unbounded here; it is
only when a result becomes a binary number again that it can be too large.

## Main definitions

* `Decimal.isFinite`: Neither infinite nor not-a-number.
* `Matrix.Numeric`: A map whose entries are numbers.
* `Matrix.Unbounded`: A map with an infinite entry.

## Theorems

* `Decimal.add?_ne_nan`, `Decimal.mul?_ne_nan`: Results are numbers.
* `Decimal.exists_add?`, `Decimal.exists_mul?`: Finite results.
* `Matrix.ne_nan_of_image?`, `Matrix.numeric_of_mul?`: The values of a map are
  numbers, and so are the entries of a composite.
* `Matrix.unbounded_of_image?`, `Matrix.unbounded_of_mul?`: Maps without a value.
-/

namespace PathScript

namespace Decimal

/-- Whether a decimal is neither infinite nor not-a-number. -/
def isFinite : Decimal → Bool
  | .finite _ _ _ => true
  | _ => false

theorem round_ne_nan (digits : Nat) {x : Decimal} (h : x ≠ .nan) : x.round digits ≠ .nan := by
  cases x with
  | finite negative c e => exact nofun
  | infinite negative => exact nofun
  | nan => exact absurd rfl h

theorem plus_ne_nan (digits : Nat) {x : Decimal} (h : x ≠ .nan) : x.plus digits ≠ .nan := by
  cases x with
  | finite negative c e => exact nofun
  | infinite negative => exact nofun
  | nan => exact absurd rfl h

/-- A sum of numbers is a number, if there is one. -/
theorem add?_ne_nan {digits : Nat} {x y z : Decimal} (hx : x ≠ .nan) (hy : y ≠ .nan)
    (h : add? digits x y = some z) : z ≠ .nan := by
  cases x with
  | nan => exact absurd rfl hx
  | finite s c e =>
      cases y with
      | nan => exact absurd rfl hy
      | finite t d f =>
          rw [← Option.some.inj h]
          exact round_ne_nan digits nofun
      | infinite t =>
          rw [← Option.some.inj h]
          exact nofun
  | infinite s =>
      cases y with
      | nan => exact absurd rfl hy
      | finite t d f =>
          rw [← Option.some.inj h]
          exact nofun
      | infinite t =>
          simp only [add?] at h
          split at h
          · rw [← Option.some.inj h]
            exact nofun
          · cases h

/-- A product of numbers is a number, if there is one. -/
theorem mul?_ne_nan {digits : Nat} {x y z : Decimal} (hx : x ≠ .nan) (hy : y ≠ .nan)
    (h : mul? digits x y = some z) : z ≠ .nan := by
  cases x with
  | nan => exact absurd rfl hx
  | finite s c e =>
      cases y with
      | nan => exact absurd rfl hy
      | finite t d f =>
          rw [← Option.some.inj h]
          exact round_ne_nan digits nofun
      | infinite t =>
          simp only [mul?] at h
          split at h
          · cases h
          · rw [← Option.some.inj h]
            exact nofun
  | infinite s =>
      cases y with
      | nan => exact absurd rfl hy
      | finite t d f =>
          simp only [mul?] at h
          split at h
          · cases h
          · rw [← Option.some.inj h]
            exact nofun
      | infinite t =>
          rw [← Option.some.inj h]
          exact nofun

/-- Finite decimals have a finite product. -/
theorem exists_mul? (digits : Nat) {x y : Decimal} (hx : x.isFinite = true)
    (hy : y.isFinite = true) : ∃ z, mul? digits x y = some z ∧ z.isFinite = true := by
  cases x with
  | nan => exact absurd hx Bool.false_ne_true
  | infinite s => exact absurd hx Bool.false_ne_true
  | finite s c e =>
      cases y with
      | nan => exact absurd hy Bool.false_ne_true
      | infinite t => exact absurd hy Bool.false_ne_true
      | finite t d f => exact ⟨_, rfl, rfl⟩

/-- A finite decimal has a sum with any other, which is finite if both are. -/
theorem exists_add? (digits : Nat) {x : Decimal} (hx : x.isFinite = true) (y : Decimal) :
    ∃ z, add? digits x y = some z ∧ (y.isFinite = true → z.isFinite = true) := by
  cases x with
  | nan => exact absurd hx Bool.false_ne_true
  | infinite s => exact absurd hx Bool.false_ne_true
  | finite s c e =>
      cases y with
      | nan => exact ⟨_, rfl, id⟩
      | infinite t => exact ⟨_, rfl, id⟩
      | finite t d f => exact ⟨_, rfl, fun _ => rfl⟩

end Decimal

namespace Binary64

theorem ofRatio_ne_nan (negative : Bool) (num den : Nat) : ofRatio negative num den ≠ .nan := by
  unfold ofRatio
  split <;> exact nofun

theorem ofInt_ne_nan (n : Int) : ofInt n ≠ .nan := by
  unfold ofInt
  exact ofRatio_ne_nan _ _ _

/-- What is neither infinite nor not-a-number is finite. -/
theorem isFinite_of_ne {x : Binary64} (hnan : x ≠ .nan) (hinfinite : ∀ s, x ≠ .infinite s) :
    x.isFinite = true := by
  cases x with
  | finite s p => rfl
  | infinite s => exact absurd rfl (hinfinite s)
  | nan => exact absurd rfl hnan

theorem ne_nan_of_isFinite {x : Binary64} (h : x.isFinite = true) : x ≠ .nan := by
  rintro rfl
  exact absurd h Bool.false_ne_true

theorem isFinite_toDecimal {x : Binary64} (h : x.isFinite = true) :
    x.toDecimal.isFinite = true := by
  cases x with
  | finite s p =>
      rcases toBinary64_toDecimal s p with ⟨c, e, hdecimal, _⟩
      rw [hdecimal]
      rfl
  | infinite s => exact absurd h Bool.false_ne_true
  | nan => exact absurd h Bool.false_ne_true

theorem toDecimal_ne_nan {x : Binary64} (h : x ≠ .nan) : x.toDecimal ≠ .nan := by
  cases x with
  | finite s p =>
      rcases toBinary64_toDecimal s p with ⟨c, e, hdecimal, _⟩
      rw [hdecimal]
      exact nofun
  | infinite s => exact nofun
  | nan => exact absurd rfl h

end Binary64

/-- A decimal that is a number becomes a number. -/
theorem Decimal.toBinary64_ne_nan {x : Decimal} (h : x ≠ .nan) : x.toBinary64 ≠ .nan := by
  cases x with
  | finite negative c e =>
      unfold toBinary64
      dsimp only
      split
      · exact nofun
      · split
        · exact nofun
        · split
          · exact nofun
          · exact Binary64.ofRatio_ne_nan _ _ _
  | infinite negative => exact nofun
  | nan => exact absurd rfl h

namespace Matrix

variable {p q r s t : Binary64}

theorem settle_ne_nan {value : Decimal} (h : value ≠ .nan) : settle value ≠ .nan :=
  Decimal.toBinary64_ne_nan (Decimal.plus_ne_nan _ h)

theorem sumOfProducts?_ne_nan {sum : Decimal} (hp : p ≠ .nan) (hq : q ≠ .nan) (hr : r ≠ .nan)
    (hs : s ≠ .nan) (h : sumOfProducts? p q r s = some sum) : sum ≠ .nan := by
  -- There is a sum only if both products exist, and those are numbers.
  rcases Option.bind_eq_some_iff.mp h with ⟨left, hleft, h⟩
  rcases Option.bind_eq_some_iff.mp h with ⟨right, hright, h⟩
  exact Decimal.add?_ne_nan
    (Decimal.mul?_ne_nan (Binary64.toDecimal_ne_nan hp) (Binary64.toDecimal_ne_nan hq) hleft)
    (Decimal.mul?_ne_nan (Binary64.toDecimal_ne_nan hr) (Binary64.toDecimal_ne_nan hs) hright) h

theorem linear?_ne_nan {x : Binary64} (hp : p ≠ .nan) (hq : q ≠ .nan) (hr : r ≠ .nan)
    (hs : s ≠ .nan) (h : linear? p q r s = some x) : x ≠ .nan := by
  rcases Option.map_eq_some_iff.mp h with ⟨sum, hsum, rfl⟩
  exact settle_ne_nan (sumOfProducts?_ne_nan hp hq hr hs hsum)

theorem affine?_ne_nan {x : Binary64} (hp : p ≠ .nan) (hq : q ≠ .nan) (hr : r ≠ .nan)
    (hs : s ≠ .nan) (ht : t ≠ .nan) (h : affine? p q r s t = some x) : x ≠ .nan := by
  rcases Option.bind_eq_some_iff.mp h with ⟨sum, hsum, h⟩
  rcases Option.bind_eq_some_iff.mp h with ⟨total, htotal, h⟩
  rw [← Option.some.inj h]
  exact settle_ne_nan (Decimal.add?_ne_nan (sumOfProducts?_ne_nan hp hq hr hs hsum)
    (Binary64.toDecimal_ne_nan ht) htotal)

/-- Finite numbers have a finite sum of products. -/
theorem exists_sumOfProducts? (hp : p.isFinite = true) (hq : q.isFinite = true)
    (hr : r.isFinite = true) (hs : s.isFinite = true) :
    ∃ sum, sumOfProducts? p q r s = some sum ∧ sum.isFinite = true := by
  rcases Decimal.exists_mul? workingDigits (Binary64.isFinite_toDecimal hp)
    (Binary64.isFinite_toDecimal hq) with ⟨left, hleft, hfiniteLeft⟩
  rcases Decimal.exists_mul? workingDigits (Binary64.isFinite_toDecimal hr)
    (Binary64.isFinite_toDecimal hs) with ⟨right, hright, hfiniteRight⟩
  rcases Decimal.exists_add? workingDigits hfiniteLeft right with ⟨sum, hsum, hfinite⟩
  refine ⟨sum, ?_, hfinite hfiniteRight⟩
  exact Option.bind_eq_some_iff.mpr ⟨left, hleft, Option.bind_eq_some_iff.mpr ⟨right, hright, hsum⟩⟩

theorem exists_linear? (hp : p.isFinite = true) (hq : q.isFinite = true) (hr : r.isFinite = true)
    (hs : s.isFinite = true) : ∃ x, linear? p q r s = some x := by
  rcases exists_sumOfProducts? hp hq hr hs with ⟨sum, hsum, _⟩
  exact ⟨settle sum, Option.map_eq_some_iff.mpr ⟨sum, hsum, rfl⟩⟩

/-- What is added last need not be finite. -/
theorem exists_affine? (hp : p.isFinite = true) (hq : q.isFinite = true) (hr : r.isFinite = true)
    (hs : s.isFinite = true) (t : Binary64) : ∃ x, affine? p q r s t = some x := by
  rcases exists_sumOfProducts? hp hq hr hs with ⟨sum, hsum, hfinite⟩
  rcases Decimal.exists_add? workingDigits hfinite t.toDecimal with ⟨total, htotal, _⟩
  exact ⟨settle total, Option.bind_eq_some_iff.mpr
    ⟨sum, hsum, Option.bind_eq_some_iff.mpr ⟨total, htotal, rfl⟩⟩⟩

/-- A map whose entries are numbers. -/
def Numeric (m : Matrix) : Prop := ∀ x ∈ m.toList, x ≠ .nan

/-- A map with an infinite entry. -/
def Unbounded (m : Matrix) : Prop := ∃ negative, .infinite negative ∈ m.toList

/-- A property of all entries, one by one. -/
theorem forall_toList {P : Binary64 → Prop} {m : Matrix} :
    (∀ x ∈ m.toList, P x) ↔ P m.a ∧ P m.b ∧ P m.c ∧ P m.d ∧ P m.tx ∧ P m.ty := by
  simp only [toList, List.forall_mem_cons, List.not_mem_nil, false_implies, implies_true, and_true]

variable {m n k : Matrix}

/-- The entries of a map without infinite ones are finite if they are numbers. -/
theorem Numeric.isFinite (h : m.Numeric) (hbounded : ¬ m.Unbounded) :
    ∀ x ∈ m.toList, x.isFinite = true :=
  fun x hx => Binary64.isFinite_of_ne (h x hx) fun s hs => hbounded ⟨s, hs ▸ hx⟩

/-- The image of a point of numbers has numbers for its coordinates. -/
theorem ne_nan_of_image? {point image : Point} (hm : m.Numeric) (hx : point.x ≠ .nan)
    (hy : point.y ≠ .nan) (h : m.image? point = some image) :
    image.x ≠ .nan ∧ image.y ≠ .nan := by
  rcases forall_toList.mp hm with ⟨ha, hb, hc, hd, htx, hty⟩
  rcases Option.bind_eq_some_iff.mp h with ⟨x, hfirst, h⟩
  rcases Option.bind_eq_some_iff.mp h with ⟨y, hsecond, h⟩
  rw [← Option.some.inj h]
  exact ⟨affine?_ne_nan ha hx hc hy htx hfirst, affine?_ne_nan hb hx hd hy hty hsecond⟩

/-- One map after another has numbers for its entries if both have. -/
theorem numeric_of_mul? (hm : m.Numeric) (hn : n.Numeric) (h : m.mul? n = some k) :
    k.Numeric := by
  rcases forall_toList.mp hm with ⟨hma, hmb, hmc, hmd, hmtx, hmty⟩
  rcases forall_toList.mp hn with ⟨hna, hnb, hnc, hnd, hntx, hnty⟩
  rcases Option.bind_eq_some_iff.mp h with ⟨a, ha, h⟩
  rcases Option.bind_eq_some_iff.mp h with ⟨b, hb, h⟩
  rcases Option.bind_eq_some_iff.mp h with ⟨c, hc, h⟩
  rcases Option.bind_eq_some_iff.mp h with ⟨d, hd, h⟩
  rcases Option.bind_eq_some_iff.mp h with ⟨tx, htx, h⟩
  rcases Option.bind_eq_some_iff.mp h with ⟨ty, hty, h⟩
  rw [← Option.some.inj h]
  exact forall_toList.mpr ⟨linear?_ne_nan hma hna hmb hnc ha, linear?_ne_nan hma hnb hmb hnd hb,
    linear?_ne_nan hmc hna hmd hnc hc, linear?_ne_nan hmc hnb hmd hnd hd,
    affine?_ne_nan hmtx hna hmty hnc hntx htx, affine?_ne_nan hmtx hnb hmty hnd hnty hty⟩

/-- A map that has no value at a finite point has an infinite entry. -/
theorem unbounded_of_image? {point : Point} (hm : m.Numeric) (hx : point.x.isFinite = true)
    (hy : point.y.isFinite = true) (h : m.image? point = none) : m.Unbounded := by
  by_cases hbounded : m.Unbounded
  · exact hbounded
  · -- All entries are finite, so both coordinates have a value.
    rcases forall_toList.mp (hm.isFinite hbounded) with ⟨ha, hb, hc, hd, _, _⟩
    rcases exists_affine? ha hx hc hy m.tx with ⟨x, hfirst⟩
    rcases exists_affine? hb hx hd hy m.ty with ⟨y, hsecond⟩
    simp only [image?, hfirst, hsecond, Option.bind_eq_bind, Option.bind_some, pure,
      reduceCtorEq] at h

/-- A map that cannot be applied after a finite one has an infinite entry. -/
theorem unbounded_of_mul? (hm : ∀ x ∈ m.toList, x.isFinite = true) (hn : n.Numeric)
    (h : m.mul? n = none) : n.Unbounded := by
  by_cases hbounded : n.Unbounded
  · exact hbounded
  · -- All entries are finite, so each entry of the composite has a value.
    rcases forall_toList.mp hm with ⟨hma, hmb, hmc, hmd, hmtx, hmty⟩
    rcases forall_toList.mp (hn.isFinite hbounded) with ⟨hna, hnb, hnc, hnd, _, _⟩
    rcases exists_linear? hma hna hmb hnc with ⟨a, ha⟩
    rcases exists_linear? hma hnb hmb hnd with ⟨b, hb⟩
    rcases exists_linear? hmc hna hmd hnc with ⟨c, hc⟩
    rcases exists_linear? hmc hnb hmd hnd with ⟨d, hd⟩
    rcases exists_affine? hmtx hna hmty hnc n.tx with ⟨tx, htx⟩
    rcases exists_affine? hmtx hnb hmty hnd n.ty with ⟨ty, hty⟩
    simp only [mul?, ha, hb, hc, hd, htx, hty, Option.bind_eq_bind, Option.bind_some, pure,
      reduceCtorEq] at h

end Matrix

end PathScript
