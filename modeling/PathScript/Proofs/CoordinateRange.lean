import PathScript.Proofs.Overflow
import PathScript.Proofs.WellDrawn

/-!
# Coordinates out of Range

Literals and arithmetic are refused when they are too large, but maps are not. A
coordinate is worked out in decimals, which have no largest, and only the result
becomes a binary number; if that is infinite, it is drawn as it is. So a program can
run to its end and have drawn an infinite coordinate, even without a map of its own.

This module says when. Every point of a drawing was added to the path in some step, as
the image of two numbers under the map of that moment; closing a path adds a point
again that is in it already, and saving, restoring and painting only move paths about.
And the image of a point is finite just in case the map and the point are, and the two
sums that are worked out are below the magnitude at which decimals of fifteen digits
leave the range of numbers. An infinite entry never leads to a finite coordinate,
since decimal arithmetic either keeps an infinity or has no result.

## Main definitions

* `Matrix.workedOut`: What is worked out for a coordinate before it is rounded to be
  kept.
* `Matrix.InRange`: A map and a point whose image is within range.
* `State.points`: All points of a picture.
* `Process.Adds`: A process that adds a point to the path in its next step.

## Theorems

* `Decimal.isFinite_of_mul?`, `Decimal.isFinite_of_add?`: Infinities are kept.
* `Matrix.isFinite_affine?`, `Matrix.isFinite_image?`: When images are finite.
* `State.mem_points_of_redraws`: Where the points of a picture come from, in one step.
* `Process.exists_adds`: The same for a run.
* `coordinates_finite_iff_in_range`: When the coordinates of a drawing are finite.
* `infinite_coordinates_drawn`: Two programs that draw infinite ones.
-/

namespace PathScript

namespace Decimal

/-- A product of numbers is finite just in case both factors are. -/
theorem isFinite_of_mul? {digits : Nat} {x y z : Decimal} (hx : x ≠ .nan) (hy : y ≠ .nan)
    (h : mul? digits x y = some z) :
    z.isFinite = true ↔ x.isFinite = true ∧ y.isFinite = true := by
  cases x with
  | nan => exact absurd rfl hx
  | finite s c e =>
      cases y with
      | nan => exact absurd rfl hy
      | finite t d f =>
          rw [← Option.some.inj h]
          exact iff_of_true rfl ⟨rfl, rfl⟩
      | infinite t =>
          simp only [mul?] at h
          split at h
          · cases h
          · rw [← Option.some.inj h]
            exact iff_of_false Bool.false_ne_true fun hboth => Bool.false_ne_true hboth.2
  | infinite s =>
      -- An infinity times anything is infinite, if there is a product at all.
      have hz : z.isFinite = false := by
        cases y with
        | nan => exact absurd rfl hy
        | finite t d f =>
            simp only [mul?] at h
            split at h
            · cases h
            · rw [← Option.some.inj h]
              rfl
        | infinite t =>
            rw [← Option.some.inj h]
            rfl
      rw [hz]
      exact iff_of_false Bool.false_ne_true fun hboth => Bool.false_ne_true hboth.1

/-- A sum of numbers is finite just in case both terms are. -/
theorem isFinite_of_add? {digits : Nat} {x y z : Decimal} (hx : x ≠ .nan) (hy : y ≠ .nan)
    (h : add? digits x y = some z) :
    z.isFinite = true ↔ x.isFinite = true ∧ y.isFinite = true := by
  cases x with
  | nan => exact absurd rfl hx
  | finite s c e =>
      cases y with
      | nan => exact absurd rfl hy
      | finite t d f =>
          rw [← Option.some.inj h]
          exact iff_of_true rfl ⟨rfl, rfl⟩
      | infinite t =>
          rw [← Option.some.inj h]
          exact iff_of_false Bool.false_ne_true fun hboth => Bool.false_ne_true hboth.2
  | infinite s =>
      have hz : z.isFinite = false := by
        cases y with
        | nan => exact absurd rfl hy
        | finite t d f =>
            rw [← Option.some.inj h]
            rfl
        | infinite t =>
            simp only [add?] at h
            split at h
            · rw [← Option.some.inj h]
              rfl
            · cases h
      rw [hz]
      exact iff_of_false Bool.false_ne_true fun hboth => Bool.false_ne_true hboth.1

end Decimal

theorem Binary64.isFinite_of_toDecimal {x : Binary64} (h : x.toDecimal.isFinite = true) :
    x.isFinite = true := by
  cases x with
  | finite s p => rfl
  | infinite s => exact absurd h Bool.false_ne_true
  | nan => exact absurd h Bool.false_ne_true

namespace Matrix

/-- An infinite result stays infinite. -/
theorem isFinite_of_settle {d : Decimal} (h : (settle d).isFinite = true) : d.isFinite = true := by
  cases d with
  | finite s c e => rfl
  | infinite s => exact absurd h Bool.false_ne_true
  | nan => exact absurd h Bool.false_ne_true

/-- The sum of two products and a third term as it is worked out: the products are exact,
    and each sum is rounded to the working digits. -/
def workedOut (p q r s t : Binary64) : ℚ :=
  roundSignificant workingDigits
    (roundSignificant workingDigits (p.written * q.written + r.written * s.written) + t.written)

/-- A map and a point that are finite, and for which both coordinates are worked out to
    something that is kept as a finite number. -/
structure InRange (m : Matrix) (p : Point) : Prop where
  entries : ∀ x ∈ m.toList, x.isFinite = true
  point : p.x.isFinite = true ∧ p.y.isFinite = true
  x : |workedOut m.a p.x m.c p.y m.tx| < 1797693134862315 * 10 ^ 293
  y : |workedOut m.b p.x m.d p.y m.ty| < 1797693134862315 * 10 ^ 293

section

variable {p q r s t : Binary64}

/-- A sum of finite terms is what is worked out, before it is rounded to be kept. -/
theorem affine?_eq_settle (hp : p.isFinite = true) (hq : q.isFinite = true)
    (hr : r.isFinite = true) (hs : s.isFinite = true) (ht : t.isFinite = true) :
    ∃ total, affine? p q r s t = some (settle total) ∧ total.isFinite = true ∧
      total.value = workedOut p q r s t := by
  have hdigits : 0 < workingDigits := by decide
  rcases value_product hp hq with ⟨left, hleft, hfiniteLeft, hvalueLeft⟩
  rcases value_product hr hs with ⟨right, hright, hfiniteRight, hvalueRight⟩
  rcases Decimal.value_add? hdigits hfiniteLeft hfiniteRight with ⟨sum, hsum, hfiniteSum, hvalueSum⟩
  rcases Decimal.value_add? hdigits hfiniteSum (Binary64.isFinite_toDecimal ht) with
    ⟨total, htotal, hfinite, hvalue⟩
  refine ⟨total, ?_, hfinite, ?_⟩
  · simp only [affine?, sumOfProducts?, hleft, hright, hsum, htotal, Option.bind_eq_bind,
      Option.bind_some, pure]
  · rw [hvalue, hvalueSum, hvalueLeft, hvalueRight]
    rfl

/-- A coordinate that is finite was worked out from finite numbers. -/
theorem isFinite_terms_of_affine? {v : Binary64} (hp : p ≠ .nan) (hq : q ≠ .nan) (hr : r ≠ .nan)
    (hs : s ≠ .nan) (ht : t ≠ .nan) (h : affine? p q r s t = some v) (hv : v.isFinite = true) :
    (p.isFinite = true ∧ q.isFinite = true) ∧ (r.isFinite = true ∧ s.isFinite = true) ∧
      t.isFinite = true := by
  rcases Option.bind_eq_some_iff.mp h with ⟨sum, hsum, h⟩
  rcases Option.bind_eq_some_iff.mp h with ⟨total, htotal, h⟩
  rcases Option.bind_eq_some_iff.mp hsum with ⟨left, hleft, hsum⟩
  rcases Option.bind_eq_some_iff.mp hsum with ⟨right, hright, hsum⟩
  have hp' := Binary64.toDecimal_ne_nan hp
  have hq' := Binary64.toDecimal_ne_nan hq
  have hr' := Binary64.toDecimal_ne_nan hr
  have hs' := Binary64.toDecimal_ne_nan hs
  have hleft' := Decimal.mul?_ne_nan hp' hq' hleft
  have hright' := Decimal.mul?_ne_nan hr' hs' hright
  have hsum' := Decimal.add?_ne_nan hleft' hright' hsum
  -- From the result back to the numbers, one operation at a time.
  rw [← Option.some.inj h] at hv
  rcases (Decimal.isFinite_of_add? hsum' (Binary64.toDecimal_ne_nan ht) htotal).mp
    (isFinite_of_settle hv) with ⟨hfiniteSum, hfiniteT⟩
  rcases (Decimal.isFinite_of_add? hleft' hright' hsum).mp hfiniteSum with
    ⟨hfiniteLeft, hfiniteRight⟩
  rcases (Decimal.isFinite_of_mul? hp' hq' hleft).mp hfiniteLeft with ⟨hfiniteP, hfiniteQ⟩
  rcases (Decimal.isFinite_of_mul? hr' hs' hright).mp hfiniteRight with ⟨hfiniteR, hfiniteS⟩
  exact ⟨⟨Binary64.isFinite_of_toDecimal hfiniteP, Binary64.isFinite_of_toDecimal hfiniteQ⟩,
    ⟨Binary64.isFinite_of_toDecimal hfiniteR, Binary64.isFinite_of_toDecimal hfiniteS⟩,
    Binary64.isFinite_of_toDecimal hfiniteT⟩

/-- If the numbers are finite, a coordinate is just in case what is worked out is below
    the magnitude at which numbers are kept as infinite. -/
theorem isFinite_affine? {v : Binary64} (hp : p.isFinite = true) (hq : q.isFinite = true)
    (hr : r.isFinite = true) (hs : s.isFinite = true) (ht : t.isFinite = true)
    (h : affine? p q r s t = some v) :
    v.isFinite = true ↔ |workedOut p q r s t| < overflowsAt := by
  rcases affine?_eq_settle hp hq hr hs ht with ⟨total, htotal, hfinite, hvalue⟩
  rw [htotal] at h
  rw [← Option.some.inj h, isFinite_settle hfinite, hvalue]

end

/-- The image of a point is finite just in case it is within range. -/
theorem isFinite_image? {m : Matrix} {p q : Point} (hm : m.Numeric) (hx : p.x ≠ .nan)
    (hy : p.y ≠ .nan) (h : m.image? p = some q) :
    q.x.isFinite = true ∧ q.y.isFinite = true ↔ m.InRange p := by
  rcases forall_toList.mp hm with ⟨ha, hb, hc, hd, htx, hty⟩
  rcases Option.bind_eq_some_iff.mp h with ⟨x, hfirst, h⟩
  rcases Option.bind_eq_some_iff.mp h with ⟨y, hsecond, h⟩
  rw [← Option.some.inj h]
  constructor
  · rintro ⟨hfiniteX, hfiniteY⟩
    rcases isFinite_terms_of_affine? ha hx hc hy htx hfirst hfiniteX with
      ⟨⟨hfa, hfx⟩, ⟨hfc, hfy⟩, hftx⟩
    rcases isFinite_terms_of_affine? hb hx hd hy hty hsecond hfiniteY with
      ⟨⟨hfb, _⟩, ⟨hfd, _⟩, hfty⟩
    exact ⟨forall_toList.mpr ⟨hfa, hfb, hfc, hfd, hftx, hfty⟩, ⟨hfx, hfy⟩,
      (isFinite_affine? hfa hfx hfc hfy hftx hfirst).mp hfiniteX,
      (isFinite_affine? hfb hfx hfd hfy hfty hsecond).mp hfiniteY⟩
  · rintro ⟨hentries, ⟨hfx, hfy⟩, hrangeX, hrangeY⟩
    rcases forall_toList.mp hentries with ⟨hfa, hfb, hfc, hfd, hftx, hfty⟩
    exact ⟨(isFinite_affine? hfa hfx hfc hfy hftx hfirst).mpr hrangeX,
      (isFinite_affine? hfb hfx hfd hfy hfty hsecond).mpr hrangeY⟩

end Matrix

/-- The points of a path. -/
def GraphicsState.points (g : GraphicsState) : List Point := g.path.flatMap Instruction.points

/-- All points of a picture: those of the path, of the paths to return to and of the
    drawing. -/
def State.points (s : State) : List Point :=
  s.graphics.points ++ (s.saved.flatMap GraphicsState.points ++
    s.drawing.flatMap Instruction.points)

namespace State

variable {s s' : State}

theorem SamePicture.points (h : s.SamePicture s') : s'.points = s.points := by
  rw [State.points, h.graphics, h.saved, h.drawing, State.points]

/-- A point that an operator has added to the path: it is the image of two numbers that
    are held, and belongs to an instruction at the end of the path. -/
def Extends (s s' : State) (q : Point) : Prop :=
  s.Images q ∧ ∃ i : Instruction, q ∈ i.points ∧ s'.graphics.path = s.graphics.path ++ [i]

/-- The points of an instruction that is added are new or in the path already. -/
theorem images_of_draws {i : Instruction} (h : s.Draws i) {q : Point} (hq : q ∈ i.points) :
    s.Images q ∨ q ∈ s.graphics.points := by
  cases h with
  | move hp =>
      rw [List.mem_singleton.mp hq]
      exact Or.inl hp
  | line hp =>
      rw [List.mem_singleton.mp hq]
      exact Or.inl hp
  | @cubic p₁ p₂ p₃ hp₁ hp₂ hp₃ =>
      have hall : ∀ p ∈ [p₁, p₂, p₃], s.Images p :=
        List.forall_mem_cons.mpr ⟨hp₁, List.forall_mem_cons.mpr ⟨hp₂,
          List.forall_mem_singleton.mpr hp₃⟩⟩
      exact Or.inl (hall q hq)
  | again hi => exact Or.inr (List.mem_flatMap.mpr ⟨i, hi, hq⟩)

/-- What becomes of the path when the graphics state is altered. -/
theorem mem_points_of_alters (h : s.Alters s'.graphics) {q : Point}
    (hq : q ∈ s'.graphics.points) : q ∈ s.graphics.points ∨ s.Extends s' q := by
  -- Only adding an instruction changes the path, or else clearing it.
  generalize hgraphics : s'.graphics = g at h hq
  cases h with
  | @extend i hi =>
      rcases List.mem_flatMap.mp hq with ⟨j, hj, hqj⟩
      rcases List.mem_append.mp hj with hbefore | hlast
      · exact Or.inl (List.mem_flatMap.mpr ⟨j, hbefore, hqj⟩)
      · rw [List.mem_singleton.mp hlast] at hqj
        rcases images_of_draws hi hqj with himages | hpath
        · refine Or.inr ⟨himages, i, hqj, ?_⟩
          rw [hgraphics]
          rfl
        · exact Or.inl hpath
  | clear => exact absurd hq List.not_mem_nil
  | keep => exact Or.inl hq
  | concatenate => exact Or.inl hq
  | lineCap => exact Or.inl hq
  | lineJoin => exact Or.inl hq
  | lineWidth => exact Or.inl hq
  | miterLimit => exact Or.inl hq

/-- A point of a picture was in it before an operator was performed, or the operator has
    added it. -/
theorem mem_points_of_redraws {op : Primitive} (h : s.Redraws s' op) {q : Point}
    (hq : q ∈ s'.points) : q ∈ s.points ∨ s.Extends s' q := by
  have hmem : ∀ {t : State}, q ∈ t.points ↔ q ∈ t.graphics.points ∨
      q ∈ t.saved.flatMap GraphicsState.points ∨ q ∈ t.drawing.flatMap Instruction.points := by
    intro t
    rw [State.points, List.mem_append, List.mem_append]
  rw [hmem] at hq
  rw [hmem]
  cases h with
  | alters _ halters hsaved hdrawing =>
      rw [hsaved, hdrawing] at hq
      rcases hq with hpath | hothers
      · rcases mem_points_of_alters halters hpath with hbefore | hadded
        · exact Or.inl (Or.inl hbefore)
        · exact Or.inr hadded
      · exact Or.inl (Or.inr hothers)
  | paints _ hgraphics hsaved hdrawing =>
      -- The path is empty, and its points are in the drawing.
      rw [hgraphics, hsaved, hdrawing, List.flatMap_append, List.mem_append] at hq
      rcases hq with hnone | hsaved | hdrawn | hpath
      · exact absurd hnone List.not_mem_nil
      · exact Or.inl (Or.inr (Or.inl hsaved))
      · exact Or.inl (Or.inr (Or.inr hdrawn))
      · exact Or.inl (Or.inl hpath)
  | saves hgraphics hsaved hdrawing =>
      rw [hgraphics, hsaved, hdrawing, List.flatMap_cons, List.mem_append] at hq
      rcases hq with hpath | (hpath | hsaved) | hdrawn
      · exact Or.inl (Or.inl hpath)
      · exact Or.inl (Or.inl hpath)
      · exact Or.inl (Or.inr (Or.inl hsaved))
      · exact Or.inl (Or.inr (Or.inr hdrawn))
  | restores hsaved hdrawing =>
      rw [hdrawing] at hq
      rw [hsaved, List.flatMap_cons, List.mem_append]
      rcases hq with hpath | hothers | hdrawn
      · exact Or.inl (Or.inr (Or.inl (Or.inl hpath)))
      · exact Or.inl (Or.inr (Or.inl (Or.inr hothers)))
      · exact Or.inl (Or.inr (Or.inr hdrawn))

end State

namespace Process

/-- A process whose next step adds a point to the path: the image of two numbers that it
    holds, under the map in force. -/
structure Adds (p : Process) (x y : Binary64) (q : Point) : Prop where
  first : p.run.machine.Holds (.real x)
  second : p.run.machine.Holds (.real y)
  image : p.run.machine.graphics.ctm.image? ⟨x, y⟩ = some q
  added : ∃ i : Instruction, q ∈ i.points ∧
    p.step.run.machine.graphics.path = p.run.machine.graphics.path ++ [i]

/-- One step: a point of the picture was there before, or the step has added it. -/
theorem mem_points_step {p : Process} {q : Point} (hq : q ∈ p.step.run.machine.points) :
    q ∈ p.run.machine.points ∨ ∃ x y, p.Adds x y q := by
  rcases p.redraws_step with hsame | ⟨op, _, hredraws⟩
  · rw [hsame.points] at hq
    exact Or.inl hq
  · rcases State.mem_points_of_redraws hredraws hq with hbefore | ⟨⟨x, y, hx, hy, himage⟩, hadded⟩
    · exact Or.inl hbefore
    · exact Or.inr ⟨x, y, hx, hy, himage, hadded⟩

/-- A run from an empty picture: each of its points was added in some step. -/
theorem exists_adds {p : Process} (hempty : p.run.machine.points = []) {n : Nat} {q : Point}
    (hq : q ∈ (p.after n).run.machine.points) : ∃ k x y, (p.after k).Adds x y q := by
  induction n with
  | zero =>
      change q ∈ p.run.machine.points at hq
      rw [hempty] at hq
      exact absurd hq List.not_mem_nil
  | succ n ih =>
      rw [after_succ] at hq
      rcases mem_points_step hq with hbefore | hadds
      · exact ih hbefore
      · exact ⟨n, hadds⟩

end Process

/-- The points of the drawing that a run yields are points of its last picture. -/
theorem Run.mem_points_of_drawing {r : Run} {drawing : List Instruction}
    (h : r.drawing = .ok drawing) {q : Point} (hq : q ∈ drawing.flatMap Instruction.points) :
    q ∈ r.machine.points := by
  unfold Run.drawing at h
  split at h
  · cases h
  · rw [← Except.ok.inj h, List.flatMap_append, List.mem_append] at hq
    rcases hq with hdrawn | hmark
    · exact List.mem_append_right _ (List.mem_append_right _ hdrawn)
    · -- The end mark has no points.
      exact absurd hmark List.not_mem_nil

/-- When the coordinates of a drawing are finite. Each point of a drawing that an import
    yields was added to the path in some step, as the image of two numbers under the map
    then in force, and has numbers for coordinates. Such an image is finite just in case
    it is within range. So the coordinates of a drawing are all finite just in case none
    of its points comes from out of range. -/
theorem coordinates_finite_iff_in_range (settings : Settings) (source : Source)
    (drawing : List Instruction) (h : (importSource settings source).drawing = .ok drawing) :
    let p := Process.start (.start settings source) .input
    (∀ q ∈ drawing.flatMap Instruction.points, (q.x ≠ .nan ∧ q.y ≠ .nan) ∧
      ∃ k x y, (p.after k).Adds x y q) ∧
    (∀ k x y q, (p.after k).Adds x y q →
      (q.x.isFinite = true ∧ q.y.isFinite = true ↔
        (p.after k).run.machine.graphics.ctm.InRange ⟨x, y⟩)) ∧
    ((∀ q ∈ drawing.flatMap Instruction.points, q.x.isFinite = true ∧ q.y.isFinite = true) ↔
      ∀ q ∈ drawing.flatMap Instruction.points, ∀ k x y, (p.after k).Adds x y q →
        (p.after k).run.machine.graphics.ctm.InRange ⟨x, y⟩) := by
  intro p
  have hnumeric : ∀ k, (p.after k).run.machine.graphics.ctm.Numeric :=
    fun k => (wellDrawn_after settings source .input k).graphics.numeric
  have hnumber : ∀ k {x}, (p.after k).run.machine.Holds (.real x) → x ≠ .nan :=
    fun k _ => ne_nan_after settings source .input k
  have horigin : ∀ q ∈ drawing.flatMap Instruction.points, ∃ k x y, (p.after k).Adds x y q := by
    intro q hq
    rcases Process.reaches_runFrom (.start settings source) .input with ⟨n, hn⟩
    refine Process.exists_adds rfl (n := n) ?_
    rw [hn]
    exact Run.mem_points_of_drawing h hq
  have hrange : ∀ k x y q, (p.after k).Adds x y q →
      (q.x.isFinite = true ∧ q.y.isFinite = true ↔
        (p.after k).run.machine.graphics.ctm.InRange ⟨x, y⟩) :=
    fun k x y q hadds => Matrix.isFinite_image? (hnumeric k) (hnumber k hadds.first)
      (hnumber k hadds.second) hadds.image
  refine ⟨fun q hq => ?_, hrange, fun hfinite q hq k x y hadds => ?_, fun hinside q hq => ?_⟩
  · rcases horigin q hq with ⟨k, x, y, hadds⟩
    exact ⟨Matrix.ne_nan_of_image? (hnumeric k) (hnumber k hadds.first) (hnumber k hadds.second)
      hadds.image, k, x, y, hadds⟩
  · exact (hrange k x y q hadds).mp (hfinite q hq)
  · rcases horigin q hq with ⟨k, x, y, hadds⟩
    exact (hrange k x y q hadds).mpr (hinside q hq k x y hadds)

/-- A run that ends after some steps, having drawn a single point. -/
theorem drawing_of_after {source : Source} {q : Point} (n : Nat)
    (h : let p := (Process.start (.start Settings.standard source) .input).after n
      p.tasks.isEmpty = true ∧ p.run.fault? = none ∧ p.run.machine.drawing = [.move q]) :
    (importSource Settings.standard source).drawing = .ok [.move q, .finish] := by
  rcases h with ⟨htasks, hnone, hdrawing⟩
  have hrun : ((Process.start (.start Settings.standard source) .input).after n).run
      = importSource Settings.standard source :=
    (Process.runFrom_eq_of_tasks_nil (List.isEmpty_iff.mp htasks)).symm
  rw [hrun] at hnone hdrawing
  rw [Run.drawing, hnone]
  exact congrArg (fun drawn => Except.ok (drawn ++ [.finish])) hdrawing

/-- A map and a point that are finite, and whose image is not. -/
theorem drawing_of_large_map :
    (importSource Settings.standard (.text "[1e308 0 0 1 0 0] concat 10 0 moveto fill")).drawing
      = .ok [.move ⟨.infinite false, .zero false⟩, .finish] :=
  drawing_of_after 40 (by decide +kernel)

/-- A program that draws ten times a large number, and one that draws the largest number
    there is without a map of its own. -/
theorem infinite_coordinates_drawn :
    (importSource Settings.standard (.text "[1e308 0 0 1 0 0] concat 10 0 moveto fill")).drawing
      = .ok [.move ⟨.infinite false, .zero false⟩, .finish] ∧
    (importSource Settings.standard (.text "1.7976931348623157e308 0 moveto fill")).drawing
      = .ok [.move ⟨.infinite false, .zero false⟩, .finish] :=
  ⟨drawing_of_large_map, drawing_of_after 40 (by decide +kernel)⟩

/-- A point at infinity comes from out of range. The largest decimal of fifteen digits
    that is below the half way point comes from within. -/
theorem coordinates_finite_iff_in_range_edge :
    (let p := Process.start (.start Settings.standard
        (.text "[1e308 0 0 1 0 0] concat 10 0 moveto fill")) .input
      ∃ k x y, (p.after k).Adds x y ⟨.infinite false, .zero false⟩ ∧
        ¬(p.after k).run.machine.graphics.ctm.InRange ⟨x, y⟩) ∧
    (let p := Process.start (.start Settings.standard
        (.text "1.79769313486231e308 0 moveto fill")) .input
      ∃ k x y, (p.after k).Adds x y
          ⟨(Decimal.finite false 179769313486231 294).toBinary64, .zero false⟩ ∧
        (p.after k).run.machine.graphics.ctm.InRange ⟨x, y⟩) := by
  constructor
  · rcases coordinates_finite_iff_in_range _ _ _ drawing_of_large_map with ⟨horigin, hrange, _⟩
    rcases (horigin _ List.mem_cons_self).2 with ⟨k, x, y, hadds⟩
    refine ⟨k, x, y, hadds, fun hinside => ?_⟩
    exact absurd ((hrange k x y _ hadds).mpr hinside).1 Bool.false_ne_true
  · have hdrawing := @drawing_of_after (.text "1.79769313486231e308 0 moveto fill")
      ⟨(Decimal.finite false 179769313486231 294).toBinary64, .zero false⟩ 40 (by decide +kernel)
    rcases coordinates_finite_iff_in_range _ _ _ hdrawing with ⟨horigin, hrange, _⟩
    rcases (horigin _ List.mem_cons_self).2 with ⟨k, x, y, hadds⟩
    exact ⟨k, x, y, hadds, (hrange k x y _ hadds).mp ⟨by decide +kernel, rfl⟩⟩

end PathScript
