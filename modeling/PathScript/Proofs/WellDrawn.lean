import PathScript.Import
import PathScript.Proofs.Maps
import PathScript.Proofs.Picture
import PathScript.Proofs.Termination

/-!
# Well-formed Drawings

In every state that a program passes through, the graphics state, the ones to
return to and the drawing are well-formed: lines are not thinner than nothing,
the limit on mitered corners is not below one, and paths consist of instructions
that draw. The mark that ends a drawing is added last and never comes from the
program, so that a drawing has exactly one.

Most of this is so because each operator checks what it sets. But the check on
the miter limit refuses a number that is below one, and what is not a number is
not below anything. So the argument is about numbers as well: nothing that a
program comes to hold is not-a-number, arithmetic is refused before it could get
there, and maps of numbers have numbers for their values.

## Main definitions

* `Instruction.WellFormed`: An instruction that draws, with numbers for
  coordinates.
* `GraphicsState.WellFormed`, `State.WellDrawn`: The same of graphics states and
  of whole pictures.
* `Value.IsNumber`: A value that, if it is real, is a number.

## Theorems

* `isNumber_upheld`: All numbers that a program holds are numbers.
* `State.wellFormed_of_draws`, `State.wellFormed_of_alters`,
  `State.wellDrawn_of_redraws`: What operators make of well-formed pictures.
* `wellDrawn_after`: Pictures are well-formed all along.
* `programs_draw_well`: The same for the drawing that an import yields.
-/

namespace PathScript

namespace Binary64

/-- How numbers compare is how their places do. -/
theorem lt_iff_of_place {x y : Binary64} {a b : Int} (hx : x.place? = some a)
    (hy : y.place? = some b) : x.lt y = true ↔ a < b := by
  simp only [lt, order?, hx, hy, beq_iff_eq, Option.some.injEq, Int.compare_eq_lt]

theorem le_iff_of_place {x y : Binary64} {a b : Int} (hx : x.place? = some a)
    (hy : y.place? = some b) : x.le y = true ↔ a ≤ b := by
  simp only [le, lt, eq, order?, hx, hy, Bool.or_eq_true, beq_iff_eq, Option.some.injEq,
    Int.compare_eq_lt, Int.compare_eq_eq]
  omega

/-- A number has a place. -/
theorem exists_place {x : Binary64} (h : x ≠ .nan) : ∃ a, x.place? = some a := by
  cases x with
  | finite s p => exact ⟨_, rfl⟩
  | infinite s => exact ⟨_, rfl⟩
  | nan => exact absurd rfl h

/-- Of two numbers, one is below the other or not. -/
theorem le_of_lt_eq_false {x y : Binary64} (hx : x ≠ .nan) (hy : y ≠ .nan)
    (h : x.lt y = false) : y.le x = true := by
  rcases exists_place hx with ⟨a, ha⟩
  rcases exists_place hy with ⟨b, hb⟩
  have hlt := mt (lt_iff_of_place ha hb).mpr (Bool.eq_false_iff.mp h)
  exact (le_iff_of_place hb ha).mpr (Int.not_lt.mp hlt)

/-- A number without its sign is not below zero. -/
theorem zero_le_abs {x : Binary64} (h : x ≠ .nan) : (zero false).le x.abs = true := by
  have hplace : ∃ n : Nat, x.abs.place? = some n := by
    cases x with
    | finite s p => exact ⟨_, rfl⟩
    | infinite s => exact ⟨_, rfl⟩
    | nan => exact absurd rfl h
  rcases hplace with ⟨n, hn⟩
  have hzero : (zero false).place? = some 0 := by decide +kernel
  exact (le_iff_of_place hzero hn).mpr (Int.natCast_nonneg n)

end Binary64

/-- An instruction that draws: a move or a line with one point, or a curve with three,
    with numbers for coordinates. -/
structure Instruction.WellFormed (i : Instruction) : Prop where
  shape : (i.kind = .move ∨ i.kind = .line) ∧ i.points.length = 1 ∨
    i.kind = .cubic ∧ i.points.length = 3
  numeric : ∀ p ∈ i.points, p.x ≠ .nan ∧ p.y ≠ .nan

theorem Instruction.WellFormed.ne_finish {i : Instruction} (h : i.WellFormed) : i ≠ .finish := by
  rintro rfl
  rcases h.shape with ⟨hkind, _⟩ | ⟨hkind, _⟩
  · rcases hkind with hkind | hkind
    · exact absurd hkind (by decide)
    · exact absurd hkind (by decide)
  · exact absurd hkind (by decide)

/-- A graphics state with six numbers for its map, a style that is allowed, and a path
    of instructions that draw. -/
structure GraphicsState.WellFormed (g : GraphicsState) : Prop where
  entries : g.ctm.toList.length = 6
  numeric : g.ctm.Numeric
  lineCap : g.lineCap.code ∈ [0, 1, 2]
  lineJoin : g.lineJoin.code ∈ [0, 1, 2]
  lineWidth : (Binary64.zero false).le g.lineWidth = true
  miterLimit : Binary64.one.le g.miterLimit = true
  path : ∀ i ∈ g.path, i.WellFormed

/-- A state whose graphics state, whose graphics states to return to and whose drawing
    are well-formed. -/
structure State.WellDrawn (s : State) : Prop where
  graphics : s.graphics.WellFormed
  saved : ∀ g ∈ s.saved, g.WellFormed
  drawing : ∀ i ∈ s.drawing, i.WellFormed

theorem LineCap.code_mem (cap : LineCap) : cap.code ∈ [0, 1, 2] := by
  cases cap <;> decide

theorem LineJoin.code_mem (join : LineJoin) : join.code ∈ [0, 1, 2] := by
  cases join <;> decide

/-- A program starts with a well-formed picture. -/
theorem State.wellDrawn_initial : State.initial.WellDrawn := by
  have hgraphics : GraphicsState.initial.WellFormed :=
    { entries := rfl
      numeric := by
        have hnumbers : ∀ x ∈ Matrix.identity.toList, x ≠ .nan := by decide +kernel
        exact hnumbers
      lineCap := LineCap.code_mem _
      lineJoin := LineJoin.code_mem _
      lineWidth := by decide +kernel
      miterLimit := by decide +kernel
      path := List.forall_mem_nil _ }
  exact ⟨hgraphics, List.forall_mem_nil _, List.forall_mem_nil _⟩

/-- A value that, if it is real, is a number. -/
def Value.IsNumber : Value → Prop
  | .real x => x ≠ .nan
  | _ => True

/-- No number that a program holds is not-a-number. -/
theorem isNumber_upheld : Upheld Value.IsNumber (fun _ => True) where
  name := fun _ => trivial
  bool := fun _ => trivial
  operator := fun _ => trivial
  real := fun _ hfinite => Binary64.ne_nan_of_isFinite hfinite
  negated := by
    intro x hx
    cases x with
    | finite s p => exact nofun
    | infinite s => exact nofun
    | nan => exact absurd rfl hx
  count := fun n => Binary64.ofInt_ne_nan n
  array := fun _ _ => trivial
  literal := fun _ _ _ => trivial
  body := fun _ => trivial
  nil := trivial
  tail := fun _ _ => trivial
  capture := fun _ _ _ => ⟨fun _ => trivial, trivial⟩
  captureInput := fun _ _ _ => trivial

namespace State

variable {s s' : State} (hnumbers : ∀ x, s.Holds (.real x) → x ≠ .nan)
include hnumbers

/-- The image of numbers that are held has numbers for its coordinates. -/
theorem ne_nan_of_images {p : Point} (hs : s.graphics.WellFormed) (h : s.Images p) :
    p.x ≠ .nan ∧ p.y ≠ .nan := by
  rcases h with ⟨x, y, hx, hy, himage⟩
  exact Matrix.ne_nan_of_image? hs.numeric (hnumbers x hx) (hnumbers y hy) himage

/-- Operators add well-formed instructions to a well-formed path. -/
theorem wellFormed_of_draws {i : Instruction} (hs : s.graphics.WellFormed) (h : s.Draws i) :
    i.WellFormed := by
  cases h with
  | @move p hp =>
      refine ⟨Or.inl ⟨Or.inl rfl, rfl⟩, fun point hpoint => ?_⟩
      rw [List.mem_singleton.mp hpoint]
      exact ne_nan_of_images hnumbers hs hp
  | @line p hp =>
      refine ⟨Or.inl ⟨Or.inr rfl, rfl⟩, fun point hpoint => ?_⟩
      rw [List.mem_singleton.mp hpoint]
      exact ne_nan_of_images hnumbers hs hp
  | @cubic p q r hp hq hr =>
      refine ⟨Or.inr ⟨rfl, rfl⟩, ?_⟩
      simp only [Instruction.points, List.forall_mem_cons, List.not_mem_nil, false_implies,
        implies_true, and_true]
      exact ⟨ne_nan_of_images hnumbers hs hp, ne_nan_of_images hnumbers hs hq,
        ne_nan_of_images hnumbers hs hr⟩
  | again hi => exact hs.path i hi

/-- Operators make well-formed graphics states of well-formed ones. -/
theorem wellFormed_of_alters {g : GraphicsState} (hs : s.graphics.WellFormed) (h : s.Alters g) :
    g.WellFormed := by
  cases h with
  | keep => exact hs
  | @extend i hi =>
      refine { hs with path := fun other hother => ?_ }
      rcases List.mem_append.mp hother with hbefore | hlast
      · exact hs.path other hbefore
      · rw [List.mem_singleton.mp hlast]
        exact wellFormed_of_draws hnumbers hs hi
  | clear => exact { hs with path := List.forall_mem_nil _ }
  | @concatenate m ctm hm hctm =>
      have hnumeric : m.Numeric := fun x hx => hnumbers x (hm x hx)
      exact { hs with entries := rfl, numeric := Matrix.numeric_of_mul? hnumeric hs.numeric hctm }
  | lineCap cap => exact { hs with lineCap := cap.code_mem }
  | lineJoin join => exact { hs with lineJoin := join.code_mem }
  | @lineWidth x hx => exact { hs with lineWidth := Binary64.zero_le_abs (hnumbers x hx) }
  | @miterLimit x hx hlow =>
      -- A number that is not below one is one or above, unlike what is not a number.
      have hone : Binary64.one ≠ .nan := Binary64.ofInt_ne_nan 1
      exact { hs with miterLimit := Binary64.le_of_lt_eq_false (hnumbers x hx) hone hlow }

/-- Operators make well-formed pictures of well-formed ones. -/
theorem wellDrawn_of_redraws {op : Primitive} (h : s.Redraws s' op) (hs : s.WellDrawn) :
    s'.WellDrawn := by
  cases h with
  | alters _ halters hsaved hdrawing =>
      refine ⟨wellFormed_of_alters hnumbers hs.graphics halters, ?_, ?_⟩
      · rw [hsaved]
        exact hs.saved
      · rw [hdrawing]
        exact hs.drawing
  | paints _ hgraphics hsaved hdrawing =>
      refine ⟨?_, ?_, ?_⟩
      · rw [hgraphics]
        exact wellFormed_of_alters hnumbers hs.graphics .clear
      · rw [hsaved]
        exact hs.saved
      · -- What is drawn was drawn before or was in the path.
        intro i hi
        rw [hdrawing] at hi
        rcases List.mem_append.mp hi with hbefore | hpath
        · exact hs.drawing i hbefore
        · exact hs.graphics.path i hpath
  | saves hgraphics hsaved hdrawing =>
      refine ⟨?_, ?_, ?_⟩
      · rw [hgraphics]
        exact hs.graphics
      · rw [hsaved]
        exact List.forall_mem_cons.mpr ⟨hs.graphics, hs.saved⟩
      · rw [hdrawing]
        exact hs.drawing
  | restores hsaved hdrawing =>
      -- The graphics state that comes back is one of those there were to return to.
      have hkept := hs.saved
      rw [hsaved] at hkept
      refine ⟨(List.forall_mem_cons.mp hkept).1, (List.forall_mem_cons.mp hkept).2, ?_⟩
      rw [hdrawing]
      exact hs.drawing

end State

/-- No number that a program comes to hold is not-a-number. -/
theorem ne_nan_after (settings : Settings) (source : Source) (supply : Supply) (n : Nat)
    {x : Binary64} (h : ((Process.start (.start settings source) supply).after n).run.machine.Holds
      (.real x)) : x ≠ .nan := by
  have hlexemes : ∀ lexemes, supply = .list lexemes → True := fun _ _ => trivial
  exact (isNumber_upheld.sound_after settings source hlexemes n).machine.of_holds h

/-- The picture is well-formed in every state that a program passes through. -/
theorem wellDrawn_after (settings : Settings) (source : Source) (supply : Supply) (n : Nat) :
    ((Process.start (.start settings source) supply).after n).run.machine.WellDrawn := by
  refine Process.picture_after (J := State.WellDrawn)
    (K := fun m => ∀ x, m.Holds (.real x) → x ≠ .nan) ?_ ?_ ?_ State.wellDrawn_initial n
  · intro s s' hsame hs
    refine ⟨?_, ?_, ?_⟩
    · rw [hsame.graphics]
      exact hs.graphics
    · rw [hsame.saved]
      exact hs.saved
    · rw [hsame.drawing]
      exact hs.drawing
  · -- Operators take their numbers from what is held, and that is numbers all along.
    exact fun hnumbers hredraws hs => State.wellDrawn_of_redraws hnumbers hredraws hs
  · exact fun k x hx => ne_nan_after settings source supply k hx

/-- The drawing of a run that completes ends in the only mark in it, if what was drawn
    is well-formed. -/
theorem Run.finish_of_drawing {r : Run} {drawing : List Instruction}
    (hr : r.machine.WellDrawn) (h : r.drawing = .ok drawing) :
    drawing.count .finish = 1 ∧ drawing.getLast? = some .finish := by
  unfold Run.drawing at h
  split at h
  · cases h
  · rw [← Except.ok.inj h]
    -- Nothing that a program draws is an end mark, so the one at the end is the only one.
    have hnone : r.machine.drawing.count .finish = 0 :=
      List.count_eq_zero.mpr fun hmem => (hr.drawing _ hmem).ne_finish rfl
    refine ⟨?_, List.getLast?_concat⟩
    rw [List.count_append, hnone]
    rfl

/-- What an import yields is the drawing of a run under the chosen settings. -/
theorem drawing_of_importWith {choices : List (String × Settings.Choice)} {source : Source}
    {drawing : List Instruction} (h : importWith choices source = .ok drawing) :
    ∃ settings, Settings.override choices = .ok settings ∧
      (importSource settings source).drawing = .ok drawing := by
  unfold importWith at h
  cases hsettings : Settings.override choices with
  | error unknown =>
      rw [hsettings] at h
      change Except.error (ImportError.settings unknown) = .ok drawing at h
      cases h
  | ok settings =>
      rw [hsettings] at h
      refine ⟨settings, rfl, ?_⟩
      change (importSource settings source).drawing.mapError ImportError.fault = .ok drawing at h
      cases hdrawing : (importSource settings source).drawing with
      | error fault =>
          rw [hdrawing] at h
          change Except.error (ImportError.fault fault) = .ok drawing at h
          cases h
      | ok drawn =>
          rw [hdrawing] at h
          rw [Except.ok.inj h]

/-- Programs draw well. In every state that a program passes through, and in the one it
    ends in, the graphics state and every one to return to are well-formed, and so is
    the drawing. Consequently the drawing that an import yields has exactly one end
    mark, and that at its end. -/
theorem programs_draw_well (settings : Settings) (source : Source) :
    (∀ n, ((Process.start (.start settings source) .input).after n).run.machine.WellDrawn) ∧
    (importSource settings source).machine.WellDrawn ∧
    (∀ choices drawing, importWith choices source = .ok drawing →
      drawing.count .finish = 1 ∧ drawing.getLast? = some .finish) := by
  have hend : ∀ settings, (importSource settings source).machine.WellDrawn := by
    intro settings
    rcases Process.reaches_runFrom (.start settings source) .input with ⟨n, hn⟩
    have hdrawn := wellDrawn_after settings source .input n
    rw [hn] at hdrawn
    exact hdrawn
  refine ⟨wellDrawn_after settings source .input, hend settings, ?_⟩
  intro choices drawing himport
  rcases drawing_of_importWith himport with ⟨chosen, _, hdrawing⟩
  exact Run.finish_of_drawing (hend chosen) hdrawing

/-- A program that closes and strokes a path, returns to it as it was and fills it: six
    instructions, one of them an end mark. -/
theorem programs_draw_well_twice :
    let source := Source.text
      "0 0 moveto 3 0 lineto 5 setmiterlimit\ngsave closepath stroke grestore fill"
    ∃ drawing, importWith [] source = .ok drawing ∧ drawing.length = 6 ∧
      drawing.count .finish = 1 ∧ drawing.getLast? = some .finish := by
  intro source
  have hend : let p := (Process.start (.start Settings.standard source) .input).after 40
      p.tasks.isEmpty = true ∧ p.run.fault? = none ∧ p.run.machine.drawing.length = 5 := by
    decide +kernel
  have hrun : ((Process.start (.start Settings.standard source) .input).after 40).run
      = importSource Settings.standard source :=
    (Process.runFrom_eq_of_tasks_nil (List.isEmpty_iff.mp hend.1)).symm
  rcases hend with ⟨_, hnone, hlength⟩
  rw [hrun] at hnone hlength
  have himport : importWith [] source
      = .ok ((importSource Settings.standard source).machine.drawing ++ [.finish]) := by
    change (importSource Settings.standard source).drawing.mapError ImportError.fault = _
    rw [Run.drawing, hnone]
    rfl
  refine ⟨_, himport, ?_, (programs_draw_well Settings.standard source).2.2 [] _ himport⟩
  rw [List.length_append, hlength]
  rfl

end PathScript
