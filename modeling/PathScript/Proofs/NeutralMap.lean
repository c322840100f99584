import PathScript.Proofs.IntegerMaps
import PathScript.Proofs.WellDrawn

/-!
# The Neutral Map

Applying the map that moves nothing is not free of rounding: a number is written
in up to seventeen digits, and fifteen are kept. But once a number has been rounded
to fifteen digits it is left alone. It may not be written as the decimal it was
rounded to, since there can be others as short that go to the same number, above
all where numbers are sparse. Whichever is chosen has fifteen digits at most, and
so survives the next rounding and leads back to the same number.

The entries of the map in force are either those of the neutral map or results of
composing maps, so each of them was rounded before. Composing with the neutral map
does not change them, on either side and however often it is done.

## Main definitions

* `Binary64.IsSettled`: A number that was rounded to the digits that are kept.
* `Matrix.Agrees`: Equality of maps, number by number.
* `State.Settled`: A state whose maps were all rounded.

## Theorems

* `Binary64.withinDigits_of_isSettled`: What was rounded is written in no more than
  the digits that are kept.
* `Binary64.eq_ofRat_written`: What a number is written as leads back to it.
* `Matrix.exists_identity_mul?`, `Matrix.exists_mul?_identity`,
  `Matrix.exists_identity_image?`: The neutral map on what was rounded.
* `settled_after`: The maps of a program were all rounded.
* `identity_neutral_after`: Neutrality in every state of a program.
-/

namespace PathScript

namespace Binary64

/-- A number that was rounded to the digits that are kept. -/
def IsSettled (x : Binary64) : Prop := ∃ d, x = Matrix.settle d

/-- What was rounded is written in no more than the digits that are kept. -/
theorem withinDigits_of_isSettled {x : Binary64} (h : x.IsSettled) (hx : x.isFinite = true) :
    WithinDigits Matrix.keptDigits x.written := by
  rcases h with ⟨d, rfl⟩
  have hd : d.isFinite = true := by
    cases d with
    | finite s c e => rfl
    | infinite s => exact absurd hx Bool.false_ne_true
    | nan => exact absurd hx Bool.false_ne_true
  rw [Matrix.settle_eq hd] at hx ⊢
  have hrounded := withinDigits_roundSignificant (show 0 < Matrix.keptDigits by decide) d.value
  generalize roundSignificant Matrix.keptDigits d.value = v at hx hrounded ⊢
  cases hnumber : ofRat v with
  | finite s p =>
      -- The decimal it was rounded to leads to its position, so the shortest that does
      -- is as short.
      rcases coefficient_toDecimal_lt (by decide) (by decide) hrounded s
        (eq_of_atPosition hnumber) with ⟨c, e, hdecimal, hc⟩
      rw [written, hdecimal]
      exact Decimal.withinDigits_value hc s e
  | infinite s =>
      rw [hnumber] at hx
      exact absurd hx Bool.false_ne_true
  | nan =>
      rw [hnumber] at hx
      exact absurd hx Bool.false_ne_true

/-- What a number is written as leads back to it, but for the sign of zero. -/
theorem eq_ofRat_written {x : Binary64} (hx : x.isFinite = true) :
    (ofRat x.written).eq x = true := by
  cases x with
  | infinite s => exact absurd hx Bool.false_ne_true
  | nan => exact absurd hx Bool.false_ne_true
  | finite s p =>
      rcases coefficient_toDecimal_lt_seventeen s p with ⟨c, e, hdecimal, _⟩
      have hposition := positionOf_toDecimal s p
      have hnumber : ofRat (Binary64.finite s p).written
          = .finite (decide ((Binary64.finite s p).written < 0)) p := by
        rw [ofRat, written, hposition]
        exact dif_pos p.isLt
      rw [hnumber]
      refine eq_of_place ?_ rfl
      rw [place?, written, hdecimal]
      by_cases hc : c = 0
      · -- Zero is at the first position, and its sign does not count.
        have hzero : quantaAt p = 0 := by
          rw [hdecimal, hc, positionOf_eq_zero (by simp [Decimal.value, signed])] at hposition
          rw [← hposition]
          rfl
        rw [hzero, signed_zero, signed_zero]
      · have hsign : decide ((Decimal.finite s c e).value < 0) = s := by
          rw [Bool.eq_iff_iff, decide_eq_true_iff, Decimal.value_lt_zero_iff]
          exact and_iff_left hc
        rw [hsign]

theorem written_one : one.written = 1 := by
  have hone : one.toInt? = some 1 := by decide +kernel
  exact_mod_cast written_of_toInt? hone (by decide)

theorem written_zero : (zero false).written = 0 := by
  have hzero : (zero false).toInt? = some 0 := by decide +kernel
  exact_mod_cast written_of_toInt? hzero (by decide)

end Binary64

namespace Matrix

/-- Equality of maps, number by number. -/
structure Agrees (m n : Matrix) : Prop where
  a : m.a.eq n.a = true
  b : m.b.eq n.b = true
  c : m.c.eq n.c = true
  d : m.d.eq n.d = true
  tx : m.tx.eq n.tx = true
  ty : m.ty.eq n.ty = true

/-- A sum of one number that was rounded and of zeros is that number. -/
theorem RoundsOnce.eq_of_single {terms : List ℚ} {x y : Binary64} (h : RoundsOnce terms y)
    (hx : x.isFinite = true) (hsettled : x.IsSettled)
    (hterms : ∀ t ∈ terms, t = x.written ∨ t = 0) (hsum : terms.sum = x.written) :
    y.eq x = true := by
  have hwithin := Binary64.withinDigits_of_isSettled hsettled hx
  have hscale : OneScale terms := by
    rcases hwithin with ⟨c, e, hc, hvalue⟩
    refine ⟨e, fun t ht => ?_⟩
    rcases hterms t ht with rfl | rfl
    · exact ⟨c, hc.trans (by norm_num [keptDigits]), hvalue⟩
    · exact ⟨0, by norm_num, by rw [Int.cast_zero, zero_mul]⟩
  rw [h hscale, hsum, roundSignificant_eq_self hwithin]
  exact Binary64.eq_ofRat_written hx

section

variable {p q r s t x : Binary64}

/-- Linear entries are rounded. -/
theorem isSettled_of_linear? (h : linear? p q r s = some x) : x.IsSettled := by
  rcases Option.map_eq_some_iff.mp h with ⟨sum, _, hx⟩
  exact ⟨sum, hx.symm⟩

/-- So are entries and coordinates with a translation. -/
theorem isSettled_of_affine? (h : affine? p q r s t = some x) : x.IsSettled := by
  rcases Option.bind_eq_some_iff.mp h with ⟨sum, _, h⟩
  rcases Option.bind_eq_some_iff.mp h with ⟨total, _, h⟩
  exact ⟨total, (Option.some.inj h).symm⟩

end

/-- The entries of a composite are rounded. -/
theorem isSettled_of_mul? {m n k : Matrix} (h : m.mul? n = some k) :
    ∀ x ∈ k.toList, x.IsSettled := by
  rcases Option.bind_eq_some_iff.mp h with ⟨a, ha, h⟩
  rcases Option.bind_eq_some_iff.mp h with ⟨b, hb, h⟩
  rcases Option.bind_eq_some_iff.mp h with ⟨c, hc, h⟩
  rcases Option.bind_eq_some_iff.mp h with ⟨d, hd, h⟩
  rcases Option.bind_eq_some_iff.mp h with ⟨tx, htx, h⟩
  rcases Option.bind_eq_some_iff.mp h with ⟨ty, hty, h⟩
  rw [← Option.some.inj h]
  exact forall_toList.mpr ⟨isSettled_of_linear? ha, isSettled_of_linear? hb,
    isSettled_of_linear? hc, isSettled_of_linear? hd, isSettled_of_affine? htx,
    isSettled_of_affine? hty⟩

/-- The coordinates of an image are rounded. -/
theorem isSettled_of_image? {m : Matrix} {p q : Point} (h : m.image? p = some q) :
    q.x.IsSettled ∧ q.y.IsSettled := by
  rcases Option.bind_eq_some_iff.mp h with ⟨x, hx, h⟩
  rcases Option.bind_eq_some_iff.mp h with ⟨y, hy, h⟩
  rw [← Option.some.inj h]
  exact ⟨isSettled_of_affine? hx, isSettled_of_affine? hy⟩

/-- The entries of the neutral map are what they are rounded to. -/
theorem isSettled_identity : ∀ x ∈ identity.toList, x.IsSettled := by
  have hfixed : ∀ x ∈ identity.toList, x = settle x.toDecimal := by decide +kernel
  exact fun x hx => ⟨x.toDecimal, hfixed x hx⟩

theorem isFinite_identity : ∀ x ∈ identity.toList, x.isFinite = true := by decide +kernel

section

variable {m : Matrix} (hm : ∀ x ∈ m.toList, x.isFinite = true)
  (hsettled : ∀ x ∈ m.toList, x.IsSettled)
include hm hsettled

/-- The neutral map before a map that was rounded. -/
theorem exists_identity_mul? : ∃ k, identity.mul? m = some k ∧ k.Agrees m := by
  rcases exists_mul?_roundsOnce isFinite_identity hm with ⟨k, hk, honce⟩
  rcases forall_toList.mp hm with ⟨ha, hb, hc, hd, htx, hty⟩
  rcases forall_toList.mp hsettled with ⟨ha', hb', hc', hd', htx', hty'⟩
  refine ⟨k, hk, honce.a.eq_of_single ha ha' ?_ ?_, honce.b.eq_of_single hb hb' ?_ ?_,
    honce.c.eq_of_single hc hc' ?_ ?_, honce.d.eq_of_single hd hd' ?_ ?_,
    honce.tx.eq_of_single htx htx' ?_ ?_, honce.ty.eq_of_single hty hty' ?_ ?_⟩ <;>
    simp [identity, Binary64.written_one, Binary64.written_zero]

/-- The neutral map after a map that was rounded. -/
theorem exists_mul?_identity : ∃ k, m.mul? identity = some k ∧ k.Agrees m := by
  rcases exists_mul?_roundsOnce hm isFinite_identity with ⟨k, hk, honce⟩
  rcases forall_toList.mp hm with ⟨ha, hb, hc, hd, htx, hty⟩
  rcases forall_toList.mp hsettled with ⟨ha', hb', hc', hd', htx', hty'⟩
  refine ⟨k, hk, honce.a.eq_of_single ha ha' ?_ ?_, honce.b.eq_of_single hb hb' ?_ ?_,
    honce.c.eq_of_single hc hc' ?_ ?_, honce.d.eq_of_single hd hd' ?_ ?_,
    honce.tx.eq_of_single htx htx' ?_ ?_, honce.ty.eq_of_single hty hty' ?_ ?_⟩ <;>
    simp [identity, Binary64.written_one, Binary64.written_zero]

end

/-- The neutral map at a point that was rounded. -/
theorem exists_identity_image? {p : Point} (hx : p.x.isFinite = true) (hy : p.y.isFinite = true)
    (hsettled : p.x.IsSettled ∧ p.y.IsSettled) :
    ∃ q, identity.image? p = some q ∧ q.x.eq p.x = true ∧ q.y.eq p.y = true := by
  rcases exists_image?_roundsOnce isFinite_identity hx hy with ⟨q, hq, honce⟩
  refine ⟨q, hq, honce.x.eq_of_single hx hsettled.1 ?_ ?_,
    honce.y.eq_of_single hy hsettled.2 ?_ ?_⟩ <;>
    simp [identity, Binary64.written_one, Binary64.written_zero]

end Matrix

/-- A state whose maps, in force and to return to, were all rounded. -/
structure State.Settled (s : State) : Prop where
  graphics : ∀ x ∈ s.graphics.ctm.toList, x.IsSettled
  saved : ∀ g ∈ s.saved, ∀ x ∈ g.ctm.toList, x.IsSettled

namespace State

/-- Operators change the map only by composing. -/
theorem isSettled_of_alters {s : State} {g : GraphicsState} (h : s.Alters g)
    (hs : ∀ x ∈ s.graphics.ctm.toList, x.IsSettled) : ∀ x ∈ g.ctm.toList, x.IsSettled := by
  cases h with
  | concatenate _ hctm => exact Matrix.isSettled_of_mul? hctm
  | _ => exact hs

/-- A program starts with the neutral map. -/
theorem settled_initial : State.initial.Settled := by
  have hctm : State.initial.graphics.ctm = Matrix.identity := rfl
  refine ⟨?_, List.forall_mem_nil _⟩
  rw [hctm]
  exact Matrix.isSettled_identity

theorem settled_of_redraws {s s' : State} {op : Primitive} (h : s.Redraws s' op)
    (hs : s.Settled) : s'.Settled := by
  cases h with
  | alters _ halters hsaved _ =>
      exact ⟨isSettled_of_alters halters hs.graphics, hsaved ▸ hs.saved⟩
  | paints _ hgraphics hsaved _ =>
      refine ⟨?_, hsaved ▸ hs.saved⟩
      rw [hgraphics]
      exact hs.graphics
  | saves hgraphics hsaved _ =>
      refine ⟨hgraphics ▸ hs.graphics, ?_⟩
      rw [hsaved]
      exact List.forall_mem_cons.mpr ⟨hs.graphics, hs.saved⟩
  | restores hsaved _ =>
      have hkept := hs.saved
      rw [hsaved] at hkept
      exact ⟨(List.forall_mem_cons.mp hkept).1, (List.forall_mem_cons.mp hkept).2⟩

/-- What `concat` makes of an array with the entries of a map. -/
theorem concatenate_pushArray {s : State} {m k : Matrix} (hk : m.mul? s.graphics.ctm = some k) :
    ∃ s', (s.pushArray (m.toList.map .real)).concatenate = .ok s' ∧ s'.operands = s.operands ∧
      s'.graphics = { s.graphics with ctm := k } :=
  ⟨_, concatenate_eq_ok_iff.mpr ⟨_, _, _, _, m, k, rfl, rfl, rfl, hk, rfl⟩, rfl, rfl⟩

/-- What `matrix` and `concat` store is the composite of the neutral map and the map in
    force. -/
theorem perform_matrix_concat {limits : Settings} {s s' : State} {k : Matrix}
    (h : Primitive.matrix.perform limits s = .ok s')
    (hk : Matrix.identity.mul? s.graphics.ctm = some k) :
    ∃ s'', Primitive.concat.perform limits s' = .ok s'' ∧ s''.operands = s.operands ∧
      s''.graphics = { s.graphics with ctm := k } := by
  rcases pushIdentity_eq_ok_iff.mp h with ⟨_, hpushed⟩
  rcases concatenate_pushArray hk with ⟨s'', hconcat, hrest⟩
  rw [← hpushed] at hconcat
  exact ⟨s'', hconcat, hrest⟩

end State

/-- The maps of a program were all rounded. -/
theorem settled_after (settings : Settings) (source : Source) (supply : Supply) (n : Nat) :
    ((Process.start (.start settings source) supply).after n).run.machine.Settled := by
  refine Process.picture_after (J := State.Settled) (K := fun _ => True) ?_ ?_
    (fun _ => trivial) State.settled_initial n
  · intro s s' hsame hs
    exact ⟨hsame.graphics ▸ hs.graphics, hsame.saved ▸ hs.saved⟩
  · exact fun _ hredraws hs => State.settled_of_redraws hredraws hs

/-- The neutral map is neutral. In every state that a program passes through in which the
    map in force has finite entries, that map equals its composites with the neutral map
    on either side, number by number, and the one with the neutral map first is what
    `matrix` and `concat` store. Moreover, every finite point has an image under the
    neutral map, and if that is finite, then applying the neutral map again gives a point
    equal to it. -/
theorem identity_neutral_after (settings : Settings) (source : Source) (supply : Supply) (n : Nat) :
    let s := ((Process.start (.start settings source) supply).after n).run.machine.toState
    ((∀ x ∈ s.graphics.ctm.toList, x.isFinite = true) →
      (∃ k, Matrix.identity.mul? s.graphics.ctm = some k ∧ k.Agrees s.graphics.ctm ∧
        ∀ limits s', Primitive.matrix.perform limits s = .ok s' →
          ∃ s'', Primitive.concat.perform limits s' = .ok s'' ∧ s''.operands = s.operands ∧
            s''.graphics = { s.graphics with ctm := k }) ∧
      ∃ k, s.graphics.ctm.mul? Matrix.identity = some k ∧ k.Agrees s.graphics.ctm) ∧
    ∀ p : Point, p.x.isFinite = true → p.y.isFinite = true →
      ∃ q, Matrix.identity.image? p = some q ∧
        (q.x.isFinite = true → q.y.isFinite = true →
          ∃ q', Matrix.identity.image? q = some q' ∧ q'.x.eq q.x = true ∧ q'.y.eq q.y = true) := by
  intro s
  have hsettled : s.Settled := settled_after settings source supply n
  refine ⟨fun hfinite => ⟨?_, Matrix.exists_mul?_identity hfinite hsettled.graphics⟩, ?_⟩
  · rcases Matrix.exists_identity_mul? hfinite hsettled.graphics with ⟨k, hk, hagrees⟩
    exact ⟨k, hk, hagrees, fun _ _ hmatrix => State.perform_matrix_concat hmatrix hk⟩
  · intro p hx hy
    rcases Matrix.exists_image?_roundsOnce Matrix.isFinite_identity hx hy with ⟨q, hq, _⟩
    exact ⟨q, hq, fun hx' hy' =>
      Matrix.exists_identity_image? hx' hy' (Matrix.isSettled_of_image? hq)⟩

/-- A map with an entry so small that few digits are left of it and one of which a digit
    was rounded away, and a point that the neutral map moves once and then no more. -/
theorem identity_neutral_after_rounding :
    let source := Source.text "[7e-320 0 0 1 0 0.3333333333333333] concat"
    let s := ((Process.start (.start Settings.standard source) .input).after 20).run.machine.toState
    let p : Point := ⟨(Decimal.finite false 30000000000000004 (-17)).toBinary64, .one⟩
    let tiny := (Decimal.finite false 7 (-320)).toBinary64
    let third := (Decimal.finite false 333333333333333 (-15)).toBinary64
    s.graphics.ctm = ⟨tiny, .zero false, .zero false, .one, .zero false, third⟩ ∧
    (∃ k, Matrix.identity.mul? s.graphics.ctm = some k ∧ k.Agrees s.graphics.ctm) ∧
    (∃ k, s.graphics.ctm.mul? Matrix.identity = some k ∧ k.Agrees s.graphics.ctm) ∧
    ∃ q, Matrix.identity.image? p = some q ∧ q.x ≠ p.x ∧
      ∃ q', Matrix.identity.image? q = some q' ∧ q'.x.eq q.x = true ∧ q'.y.eq q.y = true := by
  intro source s p tiny third
  have hmap : s.graphics.ctm = ⟨tiny, .zero false, .zero false, .one, .zero false, third⟩ := by
    decide +kernel
  have hfinite : ∀ x ∈ s.graphics.ctm.toList, x.isFinite = true := by
    rw [hmap]
    decide +kernel
  have hpoint : p.x.isFinite = true ∧ p.y.isFinite = true ∧
      ∀ q ∈ Matrix.identity.image? p, q.x.isFinite = true ∧ q.y.isFinite = true ∧ q.x ≠ p.x := by
    decide +kernel
  rcases identity_neutral_after Settings.standard source .input 20 with ⟨hneutral, himage⟩
  rcases hneutral hfinite with ⟨⟨k, hk, hagrees, _⟩, hafter⟩
  rcases himage p hpoint.1 hpoint.2.1 with ⟨q, hq, hagain⟩
  rcases hpoint.2.2 q hq with ⟨hx, hy, hmoved⟩
  exact ⟨hmap, ⟨k, hk, hagrees⟩, hafter, q, hq, hmoved, hagain hx hy⟩

end PathScript
