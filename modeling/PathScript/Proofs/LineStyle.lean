import PathScript.Proofs.Likeness

/-!
# Style Does Not Show

How lines look is kept for a device that would draw them, and nothing here draws.
A program can set the width, the shapes and the limit on mitered corners, and it
can be refused a value, but what it is refused depends on its operands alone. No
operator looks at the style that is in force.

What is refused is the same for ends and for corners: a number that is none of
nought, one and two when its fraction is dropped, or that has no integer part.

The style travels with what does matter. Keeping a graphics state keeps its map,
its path and its style together, and returning to it brings back all three. So
that style never shows is a fact about every graphics state that there is to
return to, and it has to be carried through all of them. With it, two machines
that differ in styles only run every program in the same way, and what they draw
is the same to the last coordinate. Nothing has to be excused, as the maps are
the same and arithmetic has a result on both machines or on neither.

## Main definitions

* `Numbered`: Shapes that are numbered from nought to two.
* `GraphicsState.mapAndPath`: What is left of a graphics state without its style.
* `Machine.SameButStyle`: Two machines that differ in styles only.

## Theorems

* `shapes_set`: Which shape is set.
* `shapes_refused`: Which operands are refused.
* `Machine.sameButStyle_iff`: Such machines have pictures that look alike.
* `style_likeness`: Operators do not look at styles.
* `style_does_not_show`: Such machines run programs in the same way.
-/

namespace PathScript

/-- Shapes that are numbered from nought to two. -/
structure Numbered {α : Type} (ofCode? : Int → Option α) (code : α → Nat) : Prop where
  code_of : ∀ {n : Int} {style : α}, ofCode? n = some style ↔ n = code style
  range : ∀ {n : Int}, ofCode? n = none ↔ n < 0 ∨ 2 < n

/-- A table that has every shape under its number, has all of the three numbers and
    nothing beyond them. -/
theorem numbered_of_table {α : Type} {ofCode? : Int → Option α} {code : α → Nat}
    (hcode : ∀ style, ofCode? (code style) = some style)
    (hlisted : ∀ n ≤ 2, ∃ style, code style = n)
    (hother : ∀ n : Int, n < 0 ∨ 2 < n → ofCode? n = none) : Numbered ofCode? code := by
  have hfound : ∀ {n : Int}, ¬(n < 0 ∨ 2 < n) →
      ∃ style, n = code style ∧ ofCode? n = some style := by
    intro n hn
    rcases hlisted n.toNat (by omega) with ⟨style, hstyle⟩
    have hn' : n = code style := by omega
    exact ⟨style, hn', by rw [hn']; exact hcode style⟩
  constructor
  · intro n style
    constructor
    · intro hsome
      by_cases hn : n < 0 ∨ 2 < n
      · rw [hother n hn] at hsome
        cases hsome
      · rcases hfound hn with ⟨other, hcoded, hlooked⟩
        rw [hlooked] at hsome
        rw [← Option.some.inj hsome]
        exact hcoded
    · rintro rfl
      exact hcode style
  · intro n
    refine ⟨fun hnone => ?_, hother n⟩
    by_cases hn : n < 0 ∨ 2 < n
    · exact hn
    · rcases hfound hn with ⟨style, _, hsome⟩
      rw [hnone] at hsome
      cases hsome

theorem numbered_lineCap : Numbered LineCap.ofCode? LineCap.code := by
  refine numbered_of_table (fun style => by cases style <;> rfl) (fun n hn => ?_) fun n hn => ?_
  · rcases n with _ | _ | _ | n
    · exact ⟨.butt, rfl⟩
    · exact ⟨.round, rfl⟩
    · exact ⟨.square, rfl⟩
    · omega
  · have hne : n ≠ 0 ∧ n ≠ 1 ∧ n ≠ 2 := by omega
    simp [LineCap.ofCode?, hne]

theorem numbered_lineJoin : Numbered LineJoin.ofCode? LineJoin.code := by
  refine numbered_of_table (fun style => by cases style <;> rfl) (fun n hn => ?_) fun n hn => ?_
  · rcases n with _ | _ | _ | n
    · exact ⟨.miter, rfl⟩
    · exact ⟨.round, rfl⟩
    · exact ⟨.bevel, rfl⟩
    · omega
  · have hne : n ≠ 0 ∧ n ≠ 1 ∧ n ≠ 2 := by omega
    simp [LineJoin.ofCode?, hne]

/-- Why a number is no shape, and what is said about it: it has no integer part, or the
    integer part is out of range. -/
def Binary64.NoShape (x : Binary64) (c : Complaint) : Prop :=
  (x.truncate? = none ∧ c = .because .rangeCheck (x.text ++ " not in 0..2")) ∨
    ∃ n, x.truncate? = some n ∧ (n < 0 ∨ 2 < n) ∧
      c = .because .rangeCheck (toString n ++ " not in 0..2")

section

variable {α : Type} {ofCode? : Int → Option α} {code : α → Nat} (hshapes : Numbered ofCode? code)
include hshapes

/-- A number chooses the shape whose number is its integer part. -/
theorem styleChoice_eq_ok_iff {x : Binary64} {style : α} :
    State.styleChoice ofCode? x = .ok style ↔ x.truncate? = some (code style : Int) := by
  unfold State.styleChoice
  cases htruncate : x.truncate? with
  | none => simp
  | some n =>
      cases hcode : ofCode? n with
      | none =>
          simp only [hcode, reduceCtorEq, Option.some.injEq, false_iff]
          rintro rfl
          rw [hshapes.code_of.mpr rfl] at hcode
          cases hcode
      | some other =>
          have hn := hshapes.code_of.mp hcode
          simp only [hcode, Except.ok.injEq, Option.some.injEq]
          constructor
          · rintro rfl
            exact hn
          · intro hstyle
            rw [hshapes.code_of.mpr hstyle] at hcode
            exact (Option.some.inj hcode).symm

/-- A number is refused for being no shape, and for nothing else. -/
theorem styleChoice_eq_error_iff {x : Binary64} {c : Complaint} :
    State.styleChoice ofCode? x = .error c ↔ x.NoShape c := by
  unfold State.styleChoice Binary64.NoShape
  cases htruncate : x.truncate? with
  | none => simp [eq_comm]
  | some n =>
      cases hcode : ofCode? n with
      | none => simp [hcode, hshapes.range.mp hcode, eq_comm]
      | some style =>
          have hrange : ¬(n < 0 ∨ 2 < n) := by
            intro hout
            rw [hshapes.range.mpr hout] at hcode
            cases hcode
          simp [hcode, hrange]

/-- Which operands are refused where a shape is to be set, and why: there is no number on
    top, or one that is no shape. -/
theorem setStyle_eq_error_iff (put : GraphicsState → α → GraphicsState) {s : State}
    {c : Complaint} :
    s.setStyle ofCode? put = .error c ↔
      ((∀ x object rest, s.operands ≠ ⟨.real x, object⟩ :: rest) ∧ c = .operands 1 s.operands) ∨
        ∃ x object rest, s.operands = ⟨.real x, object⟩ :: rest ∧ x.NoShape c := by
  unfold State.setStyle
  split
  · next x object rest hoperands =>
      have hchoice : (do
          let style ← State.styleChoice ofCode? x
          return { s with operands := rest, graphics := put s.graphics style }) = .error c
            ↔ State.styleChoice ofCode? x = .error c := by
        cases State.styleChoice ofCode? x <;> simp [bind, Except.bind, pure, Except.pure]
      rw [hchoice, styleChoice_eq_error_iff hshapes]
      simp [hoperands]
  · next hother =>
      have hnumber : ∀ x object rest, s.operands ≠ ⟨.real x, object⟩ :: rest := hother
      simp [hnumber, eq_comm]

end

/-- The shape that is set is the one whose number is the integer part of the operand, at
    ends as at corners. -/
theorem shapes_set {limits : Settings} {s s' : State} :
    (Primitive.setlinecap.perform limits s = .ok s' →
      ∃ x object rest, s.operands = ⟨.real x, object⟩ :: rest ∧
        x.truncate? = some (s'.graphics.lineCap.code : Int)) ∧
    (Primitive.setlinejoin.perform limits s = .ok s' →
      ∃ x object rest, s.operands = ⟨.real x, object⟩ :: rest ∧
        x.truncate? = some (s'.graphics.lineJoin.code : Int)) := by
  constructor
  · intro h
    rcases State.setLineCap_eq_ok_iff.mp h with ⟨x, object, rest, cap, hoperands, hcap, rfl⟩
    exact ⟨x, object, rest, hoperands, (styleChoice_eq_ok_iff numbered_lineCap).mp hcap⟩
  · intro h
    rcases State.setLineJoin_eq_ok_iff.mp h with ⟨x, object, rest, join, hoperands, hjoin, rfl⟩
    exact ⟨x, object, rest, hoperands, (styleChoice_eq_ok_iff numbered_lineJoin).mp hjoin⟩

/-- Which operands the two operators refuse, and why. There is no difference between
    ends and corners. -/
theorem shapes_refused {limits : Settings} {op : Primitive} {s : State} {c : Complaint}
    (hop : op ∈ [Primitive.setlinecap, .setlinejoin]) :
    op.perform limits s = .error c ↔
      ((∀ x object rest, s.operands ≠ ⟨.real x, object⟩ :: rest) ∧ c = .operands 1 s.operands) ∨
        ∃ x object rest, s.operands = ⟨.real x, object⟩ :: rest ∧ x.NoShape c := by
  simp only [List.mem_cons, List.not_mem_nil, or_false] at hop
  rcases hop with rfl | rfl
  · exact setStyle_eq_error_iff numbered_lineCap fun g cap => { g with lineCap := cap }
  · exact setStyle_eq_error_iff numbered_lineJoin fun g join => { g with lineJoin := join }

/-- What is left of a graphics state without the style of lines. -/
def GraphicsState.mapAndPath (g : GraphicsState) : Matrix × List Instruction := (g.ctm, g.path)

/-- Two machines that agree on everything but the style of lines, in force and in the
    graphics states to return to, of which they have as many. -/
structure Machine.SameButStyle (m m' : Machine) : Prop where
  operands : m.operands = m'.operands
  marks : m.marks = m'.marks
  definitions : m.definitions = m'.definitions
  nextIdentity : m.nextIdentity = m'.nextIdentity
  settings : m.settings = m'.settings
  input : m.input = m'.input
  depth : m.depth = m'.depth
  graphics : m.graphics.mapAndPath = m'.graphics.mapAndPath
  saved : m.saved.map GraphicsState.mapAndPath = m'.saved.map GraphicsState.mapAndPath
  drawing : m.drawing = m'.drawing

/-- Machines that differ in styles have pictures that look alike, and nothing else tells
    them apart. -/
theorem Machine.sameButStyle_iff {m m' : Machine} :
    m.SameButStyle m' ↔ m.Like GraphicsState.mapAndPath id m' := by
  rw [like_iff, List.map_id, List.map_id]
  constructor <;>
    · rintro ⟨hoperands, hmarks, hdefinitions, hnext, hsettings, hinput, hdepth, hgraphics, hsaved,
        hdrawing⟩
      exact ⟨hoperands, hmarks, hdefinitions, hnext, hsettings, hinput, hdepth, hgraphics, hsaved,
        hdrawing⟩

/-- Operators do not look at styles. -/
theorem style_likeness :
    Likeness GraphicsState.mapAndPath id (· = ·) (fun _ => False) where
  path := by
    intro g g' h
    rw [List.map_id, List.map_id]
    exact congrArg Prod.snd h
  clearPath := fun h => congrArg (fun seen => (seen.1, [])) h
  extend := by
    intro g g' i i' h hi
    have hpath : g.path = g'.path := congrArg Prod.snd h
    have hmap : g.ctm = g'.ctm := congrArg Prod.fst h
    simp only [GraphicsState.mapAndPath, GraphicsState.extend, hpath, hmap, show i = i' from hi]
  move := fun h => by rw [h]
  line := fun h => by rw [h]
  cubic := fun hp hq hr => by rw [hp, hq, hr]
  image := by
    intro g g' p h
    have hmap : g.ctm = g'.ctm := congrArg Prod.fst h
    rw [hmap]
    exact corresponds_orUndefined (fun _ ha _ hb => Option.some.inj (ha.symm.trans hb))
      fun hne => absurd rfl hne
  concatenate := by
    intro g g' m h
    have hmap : g.ctm = g'.ctm := congrArg Prod.fst h
    have hpath : g.path = g'.path := congrArg Prod.snd h
    rw [hmap]
    refine corresponds_orUndefined (fun ctm ha ctm' hb => ?_) fun hne => absurd rfl hne
    rw [Option.some.inj (ha.symm.trans hb)]
    exact congrArg (Prod.mk ctm') hpath
  lineCap := fun _ h => h
  lineJoin := fun _ h => h
  lineWidth := fun _ h => h
  miterLimit := fun _ h => h

/-- Style does not show. Two machines that differ in styles only run a program in the
    same way: they end with the same fault or none, and again differ in styles only. -/
theorem style_does_not_show (m m' : Machine) (supply : Supply) (h : m.SameButStyle m') :
    (m.runFrom supply).fault? = (m'.runFrom supply).fault? ∧
    (m.runFrom supply).machine.SameButStyle (m'.runFrom supply).machine := by
  have hlike := Machine.sameButStyle_iff.mp h
  rcases style_likeness.simulation.agree_runFrom hlike supply with hescape | ⟨hfault, hmachine⟩
  · -- No complaint is excused, so neither run can have been stopped by one.
    rcases hescape with ⟨_, _, _, _, hexcused⟩ | ⟨_, _, _, _, hexcused⟩
    · exact hexcused.elim
    · exact hexcused.elim
  · exact ⟨hfault, Machine.sameButStyle_iff.mpr hmachine⟩

/-- Two machines with other styles, in force and kept, run a program that sets a width
    inside a procedure, paints what was drawn before and after it returns to the kept
    styles, and is refused a shape in the end. The styles still differ then. -/
theorem style_does_not_show_returning :
    let m : Machine :=
      { Machine.start Settings.standard (.text "") with
        saved := [{ GraphicsState.initial with path := [.move ⟨.one, .one⟩] }] }
    let m' : Machine :=
      { Machine.start Settings.standard (.text "") with
        graphics := { GraphicsState.initial with lineWidth := .zero false, lineCap := .round }
        saved := [{ GraphicsState.initial with
          path := [.move ⟨.one, .one⟩], lineJoin := .bevel, miterLimit := .one }] }
    let supply := Supply.list ["/f", openBrace, "gsave", "3", "setlinewidth", "stroke", "grestore",
      closeBrace, "def", "1", "2", "moveto", "f", "grestore", "4", "5", "lineto", "fill", "7",
      "setlinecap"]
    m.SameButStyle m' ∧
    (m.runFrom supply).machine.graphics.lineJoin ≠ (m'.runFrom supply).machine.graphics.lineJoin ∧
    (m.runFrom supply).machine.drawing.length = 3 ∧
    (m.runFrom supply).fault? = some (.report
      ⟨.rangeCheck, some "setlinecap", some 0, some "7 not in 0..2"⟩) ∧
    (m.runFrom supply).fault? = (m'.runFrom supply).fault? ∧
    (m.runFrom supply).machine.SameButStyle (m'.runFrom supply).machine := by
  intro m m' supply
  have hsame : m.SameButStyle m' :=
    ⟨rfl, rfl, rfl, rfl, rfl, rfl, rfl, by decide +kernel, by decide +kernel, rfl⟩
  have hend : let p := (Process.start m supply).after 40
      let p' := (Process.start m' supply).after 40
      (p.tasks.isEmpty = true ∧ p'.tasks.isEmpty = true) ∧
        p.run.machine.graphics.lineJoin ≠ p'.run.machine.graphics.lineJoin ∧
        p.run.machine.drawing.length = 3 ∧
        p.run.fault? = some (.report
          ⟨.rangeCheck, some "setlinecap", some 0, some "7 not in 0..2"⟩) := by decide +kernel
  rcases hend with ⟨⟨htasks, htasks'⟩, hstyle, hdrawing, hfault⟩
  have hrun : m.runFrom supply = ((Process.start m supply).after 40).run :=
    Process.runFrom_eq_of_tasks_nil (List.isEmpty_iff.mp htasks)
  have hrun' : m'.runFrom supply = ((Process.start m' supply).after 40).run :=
    Process.runFrom_eq_of_tasks_nil (List.isEmpty_iff.mp htasks')
  rw [← hrun] at hstyle hdrawing hfault
  rw [← hrun'] at hstyle
  exact ⟨hsame, hstyle, hdrawing, hfault, style_does_not_show m m' supply hsame⟩

end PathScript
