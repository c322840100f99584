import PathScript.Proofs.Operators
import PathScript.Proofs.Simulation

/-!
# Pictures That Look Alike

What a program does next hardly depends on its picture. Two machines that differ
in nothing else run a program in the same way as long as their pictures look
alike, where it is a matter of choice what is looked at: the kinds of
instructions but not their points, say, or all but the style of lines.

Such a choice is two functions. One says what is seen of a graphics state and the
other what is seen of an instruction; two pictures are alike if the same is seen
of both, place by place. `Likeness` lists what has to be known of the two
functions. There is one condition for each thing that operators do to graphics
states, and the theorems here derive that machines with such pictures stay in
step.

Arithmetic on points and maps may have a result in one picture and none in the
other. A choice that looks at neither therefore has to *excuse* the complaint
about arithmetic: nothing is claimed of a run that it stops.

## Main definitions

* `Picture`: What a program draws with and what it has drawn.
* `State.withPicture`, `Machine.withPicture`: The same with another picture.
* `Corresponds`: Results that correspond, unless one is an excused complaint.
* `Picture.Alike`: Pictures of which the same is seen.
* `Likeness`: The conditions on what is seen.
* `Run.Excused`: A run stopped by an excused complaint.
* `Machine.Like`: Machines that differ in pictures that are alike.

## Theorems

* `corresponds_orUndefined`: Arithmetic on both sides.
* `Machine.like_iff`: What machines have in common that are like each other.
* `Primitive.perform_withPicture`: Operators that do not look at the picture.
* `Likeness.corresponds_perform`: Operators on pictures that are alike.
* `Likeness.simulation`: Machines whose pictures are alike stay in step.
-/

namespace PathScript

/-- What a program draws with and what it has drawn. -/
structure Picture where
  graphics : GraphicsState
  /-- The graphics states to return to, newest first. -/
  saved : List GraphicsState
  drawing : List Instruction

/-- The picture of a state. -/
def State.picture (s : State) : Picture := ⟨s.graphics, s.saved, s.drawing⟩

/-- The state with another picture. -/
def State.withPicture (s : State) (q : Picture) : State :=
  { s with graphics := q.graphics, saved := q.saved, drawing := q.drawing }

/-- The machine with another picture. -/
def Machine.withPicture (m : Machine) (q : Picture) : Machine :=
  { m with toState := m.toState.withPicture q }

/-- Whether an operator neither looks at the picture nor changes it. -/
def Primitive.ignoresPicture : Primitive → Bool
  | .closepath | .curveto | .lineto | .moveto | .newpath => false
  | .eofill | .fill | .stroke => false
  | .concat | .grestore | .gsave => false
  | .setlinecap | .setlinejoin | .setlinewidth | .setmiterlimit => false
  | _ => true

namespace State

variable (s : State) (q : Picture)

theorem onOperands_withPicture (change : List Cell → Except Complaint (List Cell)) :
    (s.withPicture q).onOperands change = (s.onOperands change).map (·.withPicture q) := by
  have hoperands : (s.withPicture q).operands = s.operands := rfl
  unfold onOperands
  rw [hoperands]
  cases change s.operands with
  | error c => rfl
  | ok operands => rfl

theorem push?_withPicture (limits : Settings) (value : Value) :
    (s.withPicture q).push? limits value = (s.push? limits value).map (·.withPicture q) := by
  have hroom : (s.withPicture q).hasRoom limits = s.hasRoom limits := rfl
  unfold push?
  rw [hroom]
  cases s.hasRoom limits with
  | true => rfl
  | false => rfl

theorem pushProcedure?_withPicture (limits : Settings) (body : List String) :
    (s.withPicture q).pushProcedure? limits body
      = (s.pushProcedure? limits body).map (·.withPicture q) := by
  have hroom : (s.withPicture q).hasRoom limits = s.hasRoom limits := rfl
  unfold pushProcedure?
  rw [hroom]
  cases s.hasRoom limits with
  | true => rfl
  | false => rfl

theorem takeCondition_withPicture :
    (s.withPicture q).takeCondition
      = s.takeCondition.map fun taken => (taken.1, taken.2.withPicture q) := by
  have hoperands : (s.withPicture q).operands = s.operands := rfl
  unfold takeCondition
  rw [hoperands]
  split
  · split
    · rfl
    · rfl
  · rfl

end State

/-- An operator that does not look at the picture does the same with another one. -/
theorem Primitive.perform_withPicture {op : Primitive} (h : op.ignoresPicture = true)
    (limits : Settings) (s : State) (q : Picture) :
    op.perform limits (s.withPicture q) = (op.perform limits s).map (·.withPicture q) := by
  have hoperands : (s.withPicture q).operands = s.operands := rfl
  cases op with
  | add | div | mul | neg | sub | eq | ge | gt | le | lt | ne | not | exch | pop | roll =>
      exact s.onOperands_withPicture q _
  | setgray =>
      simp only [perform, State.dropGray, hoperands]
      split <;> rfl
  | setrgbcolor =>
      simp only [perform, State.dropColor, hoperands]
      split <;> rfl
  | count => exact s.push?_withPicture q limits _
  | dup =>
      simp only [perform, State.duplicate, hoperands]
      split
      · exact s.push?_withPicture q limits _
      · rfl
  | matrix =>
      have hroom : (s.withPicture q).hasRoom limits = s.hasRoom limits := rfl
      simp only [perform, State.pushIdentity, hroom]
      split <;> rfl
  | define =>
      simp only [perform, State.define, hoperands]
      split
      · split
        · rfl
        · rfl
      · rfl
  | load =>
      have hlookup : ∀ key, (s.withPicture q).lookup? key = s.lookup? key := fun _ => rfl
      simp only [perform, State.load, hoperands, hlookup]
      split
      · split <;> rfl
      · rfl
  | clip | length | clear | bind => rfl
  | _ => cases h

/-- A result that does not depend on the picture has the picture that it started
    from. -/
theorem State.picture_of_map_eq {x : Except Complaint State} {s t : State}
    (h : x = x.map (·.withPicture s.picture)) (hx : x = .ok t) : t.picture = s.picture := by
  rw [hx] at h
  rw [Except.ok.inj h]
  rfl

section

variable {α β : Type} (E : Complaint → Prop) (R : α → β → Prop)

/-- Two results that correspond: both are the same complaint or both completed in
    related ways, unless one of them is an excused complaint. -/
inductive Corresponds : Except Complaint α → Except Complaint β → Prop where
  | ok {a : α} {b : β} : R a b → Corresponds (.ok a) (.ok b)
  | error (c : Complaint) : Corresponds (.error c) (.error c)
  | left {c : Complaint} {y : Except Complaint β} : E c → Corresponds (.error c) y
  | right {c : Complaint} {x : Except Complaint α} : E c → Corresponds x (.error c)

end

/-- What comes of two steps that may fail corresponds if both steps do. -/
theorem Corresponds.bind {α β γ δ : Type} {E : Complaint → Prop} {R : α → β → Prop}
    {S : γ → δ → Prop} {x : Except Complaint α} {y : Except Complaint β}
    (h : Corresponds E R x y) {f : α → Except Complaint γ} {g : β → Except Complaint δ}
    (hfg : ∀ a b, R a b → Corresponds E S (f a) (g b)) : Corresponds E S (x >>= f) (y >>= g) := by
  cases h with
  | ok hab => exact hfg _ _ hab
  | error c => exact .error c
  | left hc => exact .left hc
  | right hc => exact .right hc

/-- The outcome of arithmetic that may have no result. -/
def orUndefined {α : Type} : Option α → Except Complaint α
  | some a => .ok a
  | none => .error .undefinedArithmetic

theorem State.toDevice_eq_orUndefined (s : State) (x y : Binary64) :
    s.toDevice x y = orUndefined (s.graphics.ctm.image? ⟨x, y⟩) := by
  unfold toDevice
  cases s.graphics.ctm.image? ⟨x, y⟩ with
  | none => rfl
  | some p => rfl

/-- Arithmetic on both sides corresponds if its results do. Where there is a result on one
    side only, the lack of one has to be excused. -/
theorem corresponds_orUndefined {α β : Type} {E : Complaint → Prop} {R : α → β → Prop}
    {x : Option α} {y : Option β} (hresults : ∀ a ∈ x, ∀ b ∈ y, R a b)
    (hexcused : x.isSome ≠ y.isSome → E .undefinedArithmetic) :
    Corresponds E R (orUndefined x) (orUndefined y) := by
  cases x with
  | none =>
      cases y with
      | none => exact .error _
      | some b => exact .left (hexcused Bool.false_ne_true)
  | some a =>
      cases y with
      | none => exact .right (hexcused Bool.false_ne_true.symm)
      | some b => exact .ok (hresults a rfl b rfl)

section

variable {α β : Type} (look : GraphicsState → α) (mark : Instruction → β)
  (near : Point → Point → Prop) (E : Complaint → Prop)

/-- Two pictures of which the same is seen, place by place. -/
structure Picture.Alike (p q : Picture) : Prop where
  graphics : look p.graphics = look q.graphics
  saved : p.saved.map look = q.saved.map look
  drawing : p.drawing.map mark = q.drawing.map mark

/-- What has to be known of what is seen of graphics states and instructions, of
    points that may stand for each other, and of the complaints that are excused. -/
structure Likeness : Prop where
  /-- What is seen of a graphics state shows what is seen of its path. -/
  path : ∀ {g g' : GraphicsState}, look g = look g' → g.path.map mark = g'.path.map mark
  clearPath : ∀ {g g' : GraphicsState}, look g = look g' → look g.clearPath = look g'.clearPath
  extend : ∀ {g g' : GraphicsState} {i i' : Instruction}, look g = look g' → mark i = mark i' →
    look (g.extend i) = look (g'.extend i')
  move : ∀ {p p' : Point}, near p p' → mark (.move p) = mark (.move p')
  line : ∀ {p p' : Point}, near p p' → mark (.line p) = mark (.line p')
  cubic : ∀ {p p' q q' r r' : Point}, near p p' → near q q' → near r r' →
    mark (.cubic p q r) = mark (.cubic p' q' r')
  /-- The images of one point may stand for each other. -/
  image : ∀ {g g' : GraphicsState} (p : Point), look g = look g' →
    Corresponds E near (orUndefined (g.ctm.image? p)) (orUndefined (g'.ctm.image? p))
  /-- Nothing new is seen when one map is put before both in force. -/
  concatenate : ∀ {g g' : GraphicsState} (m : Matrix), look g = look g' →
    Corresponds E (fun ctm ctm' => look { g with ctm := ctm } = look { g' with ctm := ctm' })
      (orUndefined (m.mul? g.ctm)) (orUndefined (m.mul? g'.ctm))
  lineCap : ∀ {g g' : GraphicsState} (cap : LineCap), look g = look g' →
    look { g with lineCap := cap } = look { g' with lineCap := cap }
  lineJoin : ∀ {g g' : GraphicsState} (join : LineJoin), look g = look g' →
    look { g with lineJoin := join } = look { g' with lineJoin := join }
  lineWidth : ∀ {g g' : GraphicsState} (x : Binary64), look g = look g' →
    look { g with lineWidth := x } = look { g' with lineWidth := x }
  miterLimit : ∀ {g g' : GraphicsState} (x : Binary64), look g = look g' →
    look { g with miterLimit := x } = look { g' with miterLimit := x }

/-- A state and one that differs from it in the picture only, where the pictures are
    alike. -/
def State.Like (s s' : State) : Prop :=
  ∃ q, s.picture.Alike look mark q ∧ s' = s.withPicture q

/-- The same of machines. -/
def Machine.Like (m m' : Machine) : Prop :=
  ∃ q, m.picture.Alike look mark q ∧ m' = m.withPicture q

/-- Machines that are like each other are the same but for what is not seen of their
    pictures. -/
theorem Machine.like_iff {m m' : Machine} :
    m.Like look mark m' ↔
      m.operands = m'.operands ∧ m.marks = m'.marks ∧ m.definitions = m'.definitions ∧
      m.nextIdentity = m'.nextIdentity ∧ m.settings = m'.settings ∧ m.input = m'.input ∧
      m.depth = m'.depth ∧ look m.graphics = look m'.graphics ∧
      m.saved.map look = m'.saved.map look ∧ m.drawing.map mark = m'.drawing.map mark := by
  constructor
  · rintro ⟨q, hq, rfl⟩
    exact ⟨rfl, rfl, rfl, rfl, rfl, rfl, rfl, hq.graphics, hq.saved, hq.drawing⟩
  · rintro ⟨hoperands, hmarks, hdefinitions, hnext, hsettings, hinput, hdepth, halike⟩
    refine ⟨m'.picture, ⟨halike.1, halike.2.1, halike.2.2⟩, ?_⟩
    rcases m with ⟨⟨operands, marks, definitions, graphics, saved, drawing, next⟩, settings,
      input, depth⟩
    rcases m' with ⟨⟨operands', marks', definitions', graphics', saved', drawing', next'⟩,
      settings', input', depth'⟩
    dsimp only at hoperands hmarks hdefinitions hnext hsettings hinput hdepth
    rw [hoperands, hmarks, hdefinitions, hnext, hsettings, hinput, hdepth]
    rfl

/-- A run stopped by an excused complaint. -/
def Run.Excused (r : Run) : Prop :=
  ∃ command line c, r.fault? = some (Complaint.toFault command line c) ∧ E c

end

namespace Likeness

variable {α β : Type} {look : GraphicsState → α} {mark : Instruction → β}
  {near : Point → Point → Prop} {E : Complaint → Prop}

/-- Results that do not depend on the picture correspond. -/
theorem corresponds_of_map_eq {s : State} {q : Picture} (hq : s.picture.Alike look mark q)
    (f : State → Except Complaint State)
    (hf : ∀ q, f (s.withPicture q) = (f s).map (·.withPicture q)) :
    Corresponds E (State.Like look mark) (f s) (f (s.withPicture q)) := by
  rw [hf q]
  cases hs : f s with
  | error c => exact .error c
  | ok t =>
      have hpicture : t.picture = s.picture := State.picture_of_map_eq (hf s.picture) hs
      exact .ok ⟨q, by rw [hpicture]; exact hq, rfl⟩

section

variable {s : State} {q : Picture} (hq : s.picture.Alike look mark q)
include hq

/-- Changing what is seen of the graphics state in the same way on both sides, and the
    operands. -/
theorem like_of_graphics {g g' : GraphicsState} (h : look g = look g') (rest : List Cell) :
    State.Like look mark { s with operands := rest, graphics := g }
      { s.withPicture q with operands := rest, graphics := g' } :=
  ⟨⟨g', q.saved, q.drawing⟩, ⟨h, hq.saved, hq.drawing⟩, rfl⟩

theorem corresponds_save (limits : Settings) :
    Corresponds E (State.Like look mark) (s.save limits) ((s.withPicture q).save limits) := by
  have hlength : s.saved.length = q.saved.length := by
    have h := congrArg List.length hq.saved
    rwa [List.length_map, List.length_map] at h
  have hsaved : (s.withPicture q).saved = q.saved := rfl
  unfold State.save
  rw [hsaved, ← hlength]
  split
  · refine .ok ⟨⟨q.graphics, q.graphics :: q.saved, q.drawing⟩, ?_, rfl⟩
    refine ⟨hq.graphics, ?_, hq.drawing⟩
    have h := hq.saved
    simp only [State.picture, List.map_cons] at h ⊢
    rw [h]
    exact congrArg (· :: _) hq.graphics
  · exact .error _

theorem corresponds_restore :
    Corresponds E (State.Like look mark) s.restore (s.withPicture q).restore := by
  have hmap : s.saved.map look = q.saved.map look := hq.saved
  have hsaved : (s.withPicture q).saved = q.saved := rfl
  unfold State.restore
  rw [hsaved]
  cases hleft : s.saved with
  | nil =>
      rw [hleft] at hmap
      rw [List.map_eq_nil_iff.mp hmap.symm]
      exact .error _
  | cons g saved =>
      cases hright : q.saved with
      | nil =>
          rw [hleft, hright] at hmap
          cases hmap
      | cons g' saved' =>
          rw [hleft, hright, List.map_cons, List.map_cons, List.cons.injEq] at hmap
          exact .ok ⟨⟨g', saved', q.drawing⟩, ⟨hmap.1, hmap.2, hq.drawing⟩, rfl⟩

/-- Setting one of the shapes of lines. -/
theorem corresponds_setStyle {γ : Type} (ofCode? : Int → Option γ)
    (put : GraphicsState → γ → GraphicsState)
    (hput : ∀ style, look (put s.graphics style) = look (put q.graphics style)) :
    Corresponds E (State.Like look mark) (s.setStyle ofCode? put)
      ((s.withPicture q).setStyle ofCode? put) := by
  have hoperands : (s.withPicture q).operands = s.operands := rfl
  unfold State.setStyle
  rw [hoperands]
  split
  · next x _ rest _ =>
      cases State.styleChoice ofCode? x with
      | error c => exact .error c
      | ok style => exact .ok (like_of_graphics hq (hput style) rest)
  · exact .error _

end

section

variable {m : Machine} {q : Picture} (hq : m.picture.Alike look mark q)
include hq

/-- Changes of state that correspond lead to runs that agree. -/
theorem agree_ofChange (command : String) {x y : Except Complaint State}
    (h : Corresponds E (State.Like look mark) x y) :
    Run.Agree (Machine.Like look mark) (fun r r' => r.Excused E ∨ r'.Excused E)
      (.ofChange m command x) (.ofChange (m.withPicture q) command y) := by
  cases h with
  | ok hst =>
      rcases hst with ⟨r, hr, rfl⟩
      exact Or.inr ⟨rfl, r, hr, rfl⟩
  | error c => exact Or.inr ⟨rfl, q, hq, rfl⟩
  | left hc => exact Or.inl (Or.inl ⟨_, _, _, rfl, hc⟩)
  | right hc => exact Or.inl (Or.inr ⟨_, _, _, rfl, hc⟩)

/-- A push does not look at the picture. -/
theorem agree_push (command : String) (value : Value) :
    Run.Agree (Machine.Like look mark) (fun r r' => r.Excused E ∨ r'.Excused E)
      (.ofChange m command (m.push? m.settings value))
      (.ofChange (m.withPicture q) command ((m.withPicture q).push? m.settings value)) :=
  agree_ofChange hq command
    (corresponds_of_map_eq hq (fun s => s.push? m.settings value)
      fun q => m.toState.push?_withPicture q m.settings value)

theorem agree_pushCaptured (lexeme : String) (body : List String) :
    Run.Agree (Machine.Like look mark) (fun r r' => r.Excused E ∨ r'.Excused E)
      (m.pushCaptured lexeme body) ((m.withPicture q).pushCaptured lexeme body) :=
  agree_ofChange hq lexeme
    (corresponds_of_map_eq hq (fun s => s.pushProcedure? m.settings body)
      fun q => m.toState.pushProcedure?_withPicture q m.settings body)

theorem agree_closeArray :
    Run.Agree (Machine.Like look mark) (fun r r' => r.Excused E ∨ r'.Excused E) m.closeArray
      (m.withPicture q).closeArray := by
  rcases hmarks : m.marks with _ | ⟨height, marks⟩
  · rw [Machine.closeArray_of_nil hmarks,
      Machine.closeArray_of_nil (m := m.withPicture q) hmarks]
    exact Or.inr ⟨rfl, q, hq, rfl⟩
  · rcases Nat.lt_or_ge m.operands.length height with hlt | hle
    · rw [Machine.closeArray_of_lt hmarks hlt,
        Machine.closeArray_of_lt (m := m.withPicture q) hmarks hlt]
      exact Or.inr ⟨rfl, q, hq, rfl⟩
    · have hroom : ((m.withPicture q).cleared height marks).hasRoom (m.withPicture q).settings
          = (m.cleared height marks).hasRoom m.settings := rfl
      rw [Machine.closeArray_of_le hmarks hle,
        Machine.closeArray_of_le (m := m.withPicture q) hmarks hle, hroom]
      split
      · exact Or.inr ⟨rfl, q, hq, rfl⟩
      · exact Or.inr ⟨rfl, q, hq, rfl⟩

theorem agree_findFont :
    Run.Agree (Machine.Like look mark) (fun r r' => r.Excused E ∨ r'.Excused E) m.findFont
      (m.withPicture q).findFont := by
  rcases hoperands : m.operands with _ | ⟨cell, rest⟩
  · rw [Machine.findFont_of_nil hoperands,
      Machine.findFont_of_nil (m := m.withPicture q) hoperands]
    exact Or.inr ⟨rfl, q, hq, rfl⟩
  · rw [Machine.findFont_of_cons hoperands,
      Machine.findFont_of_cons (m := m.withPicture q) hoperands]
    exact Simulation.agree_skipFonts rfl rfl (fun _ => ⟨q, hq, rfl⟩) ⟨q, hq, rfl⟩

theorem agree_beginConditional :
    Process.Agree (Machine.Like look mark) (fun r r' => r.Excused E ∨ r'.Excused E)
      m.beginConditional (m.withPicture q).beginConditional := by
  have hother : (m.withPicture q).takeCondition
      = m.takeCondition.map fun taken => (taken.1, taken.2.withPicture q) :=
    m.toState.takeCondition_withPicture q
  unfold Machine.beginConditional
  rw [hother]
  cases hcondition : m.takeCondition with
  | error c => exact Or.inr ⟨rfl, rfl, q, hq, rfl⟩
  | ok taken =>
      rcases taken with ⟨target, t⟩
      rcases State.takeCondition_eq_ok_iff.mp hcondition with ⟨_, _, _, _, rest, _, _, _, rfl⟩
      cases target with
      | none => exact Or.inr ⟨rfl, rfl, q, hq, rfl⟩
      | some value => exact Or.inr ⟨rfl, rfl, q, hq, rfl⟩

theorem agree_enter (name : String) (body : List String) :
    Process.Agree (Machine.Like look mark) (fun r r' => r.Excused E ∨ r'.Excused E)
      (m.enter name body) ((m.withPicture q).enter name body) := by
  have hdepth : (((m.withPicture q).depth : Int) < (m.withPicture q).settings.maxDepth)
      = ((m.depth : Int) < m.settings.maxDepth) := rfl
  unfold Machine.enter
  simp only [hdepth]
  split
  · exact Or.inr ⟨rfl, rfl, q, hq, rfl⟩
  · exact Or.inr ⟨rfl, rfl, q, hq, rfl⟩

end

variable (L : Likeness look mark near E)
include L

section

variable {s : State} {q : Picture} (hq : s.picture.Alike look mark q)
include hq

theorem corresponds_toDevice (x y : Binary64) :
    Corresponds E near (s.toDevice x y) ((s.withPicture q).toDevice x y) := by
  rw [State.toDevice_eq_orUndefined, State.toDevice_eq_orUndefined]
  exact L.image ⟨x, y⟩ hq.graphics

/-- Moving the pen and adding a straight line. -/
theorem corresponds_drawTo {instruction : Point → Instruction}
    (hmark : ∀ {p p' : Point}, near p p' → mark (instruction p) = mark (instruction p')) :
    Corresponds E (State.Like look mark) (s.drawTo instruction)
      ((s.withPicture q).drawTo instruction) := by
  have hoperands : (s.withPicture q).operands = s.operands := rfl
  unfold State.drawTo
  rw [hoperands]
  split
  · next y _ x _ rest _ =>
      refine (L.corresponds_toDevice hq x y).bind fun p p' hp => .ok ?_
      exact like_of_graphics hq (L.extend hq.graphics (hmark hp)) rest
  · exact .error _

theorem corresponds_curveTo :
    Corresponds E (State.Like look mark) s.curveTo (s.withPicture q).curveTo := by
  have hoperands : (s.withPicture q).operands = s.operands := rfl
  unfold State.curveTo
  rw [hoperands]
  split
  · next y₃ _ x₃ _ y₂ _ x₂ _ y₁ _ x₁ _ rest _ =>
      refine (L.corresponds_toDevice hq x₁ y₁).bind fun p₁ p₁' h₁ => ?_
      refine (L.corresponds_toDevice hq x₂ y₂).bind fun p₂ p₂' h₂ => ?_
      refine (L.corresponds_toDevice hq x₃ y₃).bind fun p₃ p₃' h₃ => .ok ?_
      exact like_of_graphics hq (L.extend hq.graphics (L.cubic h₁ h₂ h₃)) rest
  · exact .error _

/-- Closing the path: both paths are empty or both begin with an instruction. -/
theorem like_closePath : State.Like look mark s.closePath (s.withPicture q).closePath := by
  have hpath := L.path hq.graphics
  have hgraphics : (s.withPicture q).graphics = q.graphics := rfl
  unfold State.closePath
  rw [hgraphics]
  cases hleft : s.graphics.path with
  | nil =>
      have hright : q.graphics.path = [] := by
        simpa [State.picture, hleft] using hpath.symm
      simp only [hright]
      exact ⟨q, hq, rfl⟩
  | cons first rest =>
      cases hright : q.graphics.path with
      | nil =>
          rw [State.picture, hleft, hright] at hpath
          cases hpath
      | cons first' rest' =>
          rw [State.picture, hleft, hright, List.map_cons, List.map_cons, List.cons.injEq] at hpath
          exact like_of_graphics hq (L.extend hq.graphics hpath.1) s.operands

theorem like_dropPath : State.Like look mark s.dropPath (s.withPicture q).dropPath :=
  like_of_graphics hq (L.clearPath hq.graphics) s.operands

theorem like_paint : State.Like look mark s.paint (s.withPicture q).paint := by
  refine ⟨⟨q.graphics.clearPath, q.saved, q.drawing ++ q.graphics.path⟩, ?_, rfl⟩
  refine ⟨L.clearPath hq.graphics, hq.saved, ?_⟩
  have hpath := L.path hq.graphics
  have hdrawing := hq.drawing
  simp only [State.picture, State.paint, List.map_append] at hpath hdrawing ⊢
  rw [hpath, hdrawing]

theorem corresponds_concatenate :
    Corresponds E (State.Like look mark) s.concatenate (s.withPicture q).concatenate := by
  have hoperands : (s.withPicture q).operands = s.operands := rfl
  have hgraphics : (s.withPicture q).graphics = q.graphics := rfl
  unfold State.concatenate
  rw [hoperands, hgraphics]
  split
  · next identity items object rest _ =>
      split
      · exact .error _
      · cases (items.mapM Value.real?).bind Matrix.ofList? with
        | none => exact .error _
        | some m =>
            -- One product may exist without the other, and then the lack of it is excused.
            have hproducts := L.concatenate m hq.graphics
            simp only [State.picture] at hproducts
            dsimp only
            cases hleft : m.mul? s.graphics.ctm with
            | none =>
                cases hright : m.mul? q.graphics.ctm with
                | none => exact .error _
                | some ctm' =>
                    rw [hleft, hright] at hproducts
                    cases hproducts with
                    | left hc => exact .left hc
            | some ctm =>
                cases hright : m.mul? q.graphics.ctm with
                | none =>
                    rw [hleft, hright] at hproducts
                    cases hproducts with
                    | right hc => exact .right hc
                | some ctm' =>
                    rw [hleft, hright] at hproducts
                    cases hproducts with
                    | ok hlook => exact .ok (like_of_graphics hq hlook rest)
  · exact .error _

theorem corresponds_setLineWidth :
    Corresponds E (State.Like look mark) s.setLineWidth (s.withPicture q).setLineWidth := by
  have hoperands : (s.withPicture q).operands = s.operands := rfl
  unfold State.setLineWidth
  rw [hoperands]
  split
  · next x _ rest _ => exact .ok (like_of_graphics hq (L.lineWidth x.abs hq.graphics) rest)
  · exact .error _

theorem corresponds_setMiterLimit :
    Corresponds E (State.Like look mark) s.setMiterLimit (s.withPicture q).setMiterLimit := by
  have hoperands : (s.withPicture q).operands = s.operands := rfl
  unfold State.setMiterLimit
  rw [hoperands]
  split
  · next x _ rest _ =>
      split
      · exact .error _
      · exact .ok (like_of_graphics hq (L.miterLimit x hq.graphics) rest)
  · exact .error _

/-- Operators do the same to pictures that are alike, or one of them is stopped by an
    excused complaint. -/
theorem corresponds_perform (limits : Settings) (op : Primitive) :
    Corresponds E (State.Like look mark) (op.perform limits s)
      (op.perform limits (s.withPicture q)) := by
  cases hop : op.ignoresPicture with
  | true => exact corresponds_of_map_eq hq _ fun q => Primitive.perform_withPicture hop limits s q
  | false =>
      cases op with
      | closepath => exact .ok (L.like_closePath hq)
      | curveto => exact L.corresponds_curveTo hq
      | lineto => exact L.corresponds_drawTo hq L.line
      | moveto => exact L.corresponds_drawTo hq L.move
      | newpath | eofill => exact .ok (L.like_dropPath hq)
      | fill | stroke => exact .ok (L.like_paint hq)
      | concat => exact L.corresponds_concatenate hq
      | grestore => exact corresponds_restore hq
      | gsave => exact corresponds_save hq limits
      | setlinecap =>
          exact corresponds_setStyle hq LineCap.ofCode? (fun g cap => { g with lineCap := cap })
            fun cap => L.lineCap cap hq.graphics
      | setlinejoin =>
          exact corresponds_setStyle hq LineJoin.ofCode?
            (fun g join => { g with lineJoin := join }) fun join => L.lineJoin join hq.graphics
      | setlinewidth => exact L.corresponds_setLineWidth hq
      | setmiterlimit => exact L.corresponds_setMiterLimit hq
      | _ => cases hop

end

section

variable {m : Machine} {q : Picture} (hq : m.picture.Alike look mark q)
include hq

theorem agree_perform (op : Primitive) :
    Run.Agree (Machine.Like look mark) (fun r r' => r.Excused E ∨ r'.Excused E)
      ((m.perform op).after (.invoked (.primitive op)))
      (((m.withPicture q).perform op).after (.invoked (.primitive op))) := by
  -- Apart from what it tells, an operator is a change of state like others.
  have hchange : ∀ m : Machine, ∃ events, (m.perform op).after (.invoked (.primitive op))
      = { Run.ofChange m op.name (op.perform m.settings m.toState) with events := events } := by
    intro m
    rw [Machine.perform_eq]
    cases op.perform m.settings m.toState with
    | ok t => exact ⟨_, rfl⟩
    | error c => exact ⟨_, rfl⟩
  rcases hchange m with ⟨events, hleft⟩
  rcases hchange (m.withPicture q) with ⟨events', hright⟩
  rw [hleft, hright]
  exact agree_ofChange hq op.name (L.corresponds_perform hq m.settings op)

end

/-- Machines whose pictures are alike stay in step until one of them is stopped by an
    excused complaint. -/
theorem simulation :
    Simulation (Machine.Like look mark) (fun r r' => r.Excused E ∨ r'.Excused E) where
  persists := by
    rintro r r' s s' (⟨command, line, c, hfault, hc⟩ | ⟨command, line, c, hfault, hc⟩) hpart hpart'
    · exact Or.inl ⟨command, line, c, hpart.fault _ hfault, hc⟩
    · exact Or.inr ⟨command, line, c, hpart'.fault _ hfault, hc⟩
  input_eq := by
    rintro m m' ⟨q, _, rfl⟩
    rfl
  withInput := by
    rintro m m' input ⟨q, hq, rfl⟩
    exact ⟨q, hq, rfl⟩
  lookup_eq := by
    rintro m m' key ⟨q, _, rfl⟩
    rfl
  push := by
    rintro m m' command value ⟨q, hq, rfl⟩
    exact agree_push hq command value
  pushCaptured := by
    rintro m m' lexeme body ⟨q, hq, rfl⟩
    exact agree_pushCaptured hq lexeme body
  openArray := by
    rintro m m' ⟨q, hq, rfl⟩
    exact ⟨q, hq, rfl⟩
  closeArray := by
    rintro m m' ⟨q, hq, rfl⟩
    exact agree_closeArray hq
  perform := by
    rintro m m' op ⟨q, hq, rfl⟩
    exact L.agree_perform hq op
  findFont := by
    rintro m m' ⟨q, hq, rfl⟩
    exact agree_findFont hq
  beginConditional := by
    rintro m m' ⟨q, hq, rfl⟩
    exact agree_beginConditional hq
  enter := by
    rintro m m' name body ⟨q, hq, rfl⟩
    exact agree_enter hq name body
  leave := by
    rintro m m' ⟨q, hq, rfl⟩
    exact ⟨q, hq, rfl⟩

end Likeness

end PathScript
