import PathScript.Proofs.Likeness

/-!
# Geometry Does Not Steer

Where a program draws has no influence on what it does. The points of paths and
drawings and the maps that lead to them are written and never read: no operator
puts them on the stack, compares them, or decides anything by them. What an
operator does look at is whether a path is empty and how many graphics states can
be returned to.

So two machines that differ in nothing but such numbers run every program in the
same way. They end alike, with the same fault or with none, and differ again in
nothing but points and maps. There is one exception, which is why arithmetic is
excused here. Entries of a map can become infinite, and then a point or a product
may have no value on one machine while it has one on the other.

## Main definitions

* `GraphicsState.outline`: What is left of a graphics state without map and points.
* `Machine.SameButGeometry`: Two machines that differ in maps and points only.

## Theorems

* `Machine.sameButGeometry_iff`: Such machines have pictures that look alike.
* `outline_likeness`: Operators do not look at maps and points.
* `geometry_does_not_steer`: Such machines run programs in the same way.
-/

namespace PathScript

/-- What is left of a graphics state without its map and the points of its path: the
    kinds of the instructions and the style of lines. -/
structure GraphicsState.Outline where
  kinds : List Instruction.Kind
  lineWidth : Binary64
  lineCap : LineCap
  lineJoin : LineJoin
  miterLimit : Binary64
  deriving DecidableEq

/-- The outline of a graphics state. -/
def GraphicsState.outline (g : GraphicsState) : GraphicsState.Outline where
  kinds := g.path.map Instruction.kind
  lineWidth := g.lineWidth
  lineCap := g.lineCap
  lineJoin := g.lineJoin
  miterLimit := g.miterLimit

/-- Two machines that agree on everything but the maps and the points of paths and
    drawings: they have as many graphics states to return to, with the same style of
    lines in each, and instructions of the same kinds, place by place. -/
structure Machine.SameButGeometry (m m' : Machine) : Prop where
  operands : m.operands = m'.operands
  marks : m.marks = m'.marks
  definitions : m.definitions = m'.definitions
  nextIdentity : m.nextIdentity = m'.nextIdentity
  settings : m.settings = m'.settings
  input : m.input = m'.input
  depth : m.depth = m'.depth
  graphics : m.graphics.outline = m'.graphics.outline
  saved : m.saved.map GraphicsState.outline = m'.saved.map GraphicsState.outline
  drawing : m.drawing.map Instruction.kind = m'.drawing.map Instruction.kind

/-- Machines that differ in maps and points have pictures that look alike, and nothing
    else tells them apart. -/
theorem Machine.sameButGeometry_iff {m m' : Machine} :
    m.SameButGeometry m' ↔ m.Like GraphicsState.outline Instruction.kind m' := by
  rw [like_iff]
  constructor <;>
    · rintro ⟨hoperands, hmarks, hdefinitions, hnext, hsettings, hinput, hdepth, hgraphics, hsaved,
        hdrawing⟩
      exact ⟨hoperands, hmarks, hdefinitions, hnext, hsettings, hinput, hdepth, hgraphics, hsaved,
        hdrawing⟩

/-- Operators do not look at maps and points. -/
theorem outline_likeness :
    Likeness GraphicsState.outline Instruction.kind (fun _ _ => True)
      (· = Complaint.undefinedArithmetic) where
  path := fun h => congrArg GraphicsState.Outline.kinds h
  clearPath := by
    intro g g' h
    simp only [GraphicsState.outline, GraphicsState.Outline.mk.injEq] at h
    simp [GraphicsState.outline, GraphicsState.clearPath, h]
  extend := by
    intro g g' i i' h hkind
    simp only [GraphicsState.outline, GraphicsState.Outline.mk.injEq] at h
    simp [GraphicsState.outline, GraphicsState.extend, h, hkind]
  move := fun _ => rfl
  line := fun _ => rfl
  cubic := fun _ _ _ => rfl
  image := fun _ _ => corresponds_orUndefined (fun _ _ _ _ => trivial) fun _ => rfl
  concatenate := fun _ h => corresponds_orUndefined (fun _ _ _ _ => h) fun _ => rfl
  lineCap := by
    intro g g' cap h
    simp only [GraphicsState.outline, GraphicsState.Outline.mk.injEq] at h ⊢
    simp [h]
  lineJoin := by
    intro g g' join h
    simp only [GraphicsState.outline, GraphicsState.Outline.mk.injEq] at h ⊢
    simp [h]
  lineWidth := by
    intro g g' x h
    simp only [GraphicsState.outline, GraphicsState.Outline.mk.injEq] at h ⊢
    simp [h]
  miterLimit := by
    intro g g' x h
    simp only [GraphicsState.outline, GraphicsState.Outline.mk.injEq] at h ⊢
    simp [h]

/-- Geometry does not steer. Two machines that differ in maps and points only run a
    program in the same way, unless arithmetic has no result on one of them: they end
    with the same fault or none, and again differ in maps and points only. -/
theorem geometry_does_not_steer (m m' : Machine) (supply : Supply) (h : m.SameButGeometry m')
    (hleft : (m.runFrom supply).fault? ≠ some .undefinedArithmetic)
    (hright : (m'.runFrom supply).fault? ≠ some .undefinedArithmetic) :
    (m.runFrom supply).fault? = (m'.runFrom supply).fault? ∧
    (m.runFrom supply).machine.SameButGeometry (m'.runFrom supply).machine := by
  -- The one complaint that is excused becomes the one fault that is excluded.
  have hexcused : ∀ r : Run, r.Excused (· = Complaint.undefinedArithmetic) →
      r.fault? = some .undefinedArithmetic := by
    rintro r ⟨command, line, c, hfault, rfl⟩
    exact hfault
  have hlike := Machine.sameButGeometry_iff.mp h
  rcases outline_likeness.simulation.agree_runFrom hlike supply with
    (hescape | hescape) | ⟨hfault, hmachine⟩
  · exact absurd (hexcused _ hescape) hleft
  · exact absurd (hexcused _ hescape) hright
  · exact ⟨hfault, Machine.sameButGeometry_iff.mpr hmachine⟩

/-- A machine, and one with other maps and another path, run a program that draws,
    closes, keeps and paints paths inside a procedure and changes the map until an
    unknown name stops it. -/
theorem geometry_does_not_steer_turned :
    let turned : Matrix := ⟨.zero false, .one, .one, .zero false, .one, .zero true⟩
    let m : Machine :=
      { Machine.start Settings.standard (.text "") with
        graphics := { GraphicsState.initial with path := [.move ⟨.one, .one⟩] }
        saved := [.initial] }
    let m' : Machine :=
      { Machine.start Settings.standard (.text "") with
        graphics := { GraphicsState.initial with
          ctm := turned, path := [.move ⟨.zero true, .one⟩] }
        saved := [{ GraphicsState.initial with ctm := turned }] }
    let supply := Supply.list ["/f", openBrace, "closepath", "gsave", "stroke", closeBrace, "def",
      "1", "2", "lineto", "f", "[", "1", "0", "0", "2", "0", "0", "]", "concat", "grestore",
      "fill", "count", "nowhere"]
    (m.SameButGeometry m' ∧ (m.runFrom supply).fault? ≠ some .undefinedArithmetic ∧
      (m'.runFrom supply).fault? ≠ some .undefinedArithmetic) ∧
    (m.runFrom supply).machine.drawing ≠ (m'.runFrom supply).machine.drawing ∧
    (m.runFrom supply).fault? = (m'.runFrom supply).fault? ∧
    (m.runFrom supply).machine.SameButGeometry (m'.runFrom supply).machine := by
  intro turned m m' supply
  have hsame : m.SameButGeometry m' :=
    ⟨rfl, rfl, rfl, rfl, rfl, rfl, rfl, by decide +kernel, by decide +kernel, rfl⟩
  have hend : let p := (Process.start m supply).after 40
      let p' := (Process.start m' supply).after 40
      (p.tasks.isEmpty = true ∧ p'.tasks.isEmpty = true) ∧
        p.run.fault? ≠ some .undefinedArithmetic ∧ p'.run.fault? ≠ some .undefinedArithmetic ∧
        p.run.machine.drawing ≠ p'.run.machine.drawing := by decide +kernel
  rcases hend with ⟨⟨htasks, htasks'⟩, hleft, hright, hdrawing⟩
  have hrun : m.runFrom supply = ((Process.start m supply).after 40).run :=
    Process.runFrom_eq_of_tasks_nil (List.isEmpty_iff.mp htasks)
  have hrun' : m'.runFrom supply = ((Process.start m' supply).after 40).run :=
    Process.runFrom_eq_of_tasks_nil (List.isEmpty_iff.mp htasks')
  rw [← hrun] at hleft hdrawing
  rw [← hrun'] at hright hdrawing
  exact ⟨⟨hsame, hleft, hright⟩, hdrawing,
    geometry_does_not_steer m m' supply hsame hleft hright⟩

end PathScript
