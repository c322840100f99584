import PathScript.Proofs.Holdings

/-!
# What Becomes of the Picture

The picture is what a program draws with and what it has drawn: the graphics
state with the path under construction, the graphics states it can return to,
and the drawing. Most of what a program does has nothing to do with it. Only
the primitive operators touch the picture, and each in one of four ways: the
graphics state is altered, the path is moved to the drawing, the graphics state
is kept, or the last one that was kept comes back.

What is said here about operators is all that later arguments about pictures
need. It goes by way of what may be taken from the operands: every number that
ends up in a graphics state, directly or through a map, is one that the state
held before.

## Main definitions

* `State.SamePicture`: Two states with the same picture.
* `State.Images`: The image of two numbers that are held.
* `State.Draws`: Instructions that an operator can add to the path.
* `State.Alters`: What an operator can make of the graphics state.
* `Primitive.onlyAlters`: Operators that do no more than that to the picture.
* `State.Redraws`: What an operator makes of the picture.

## Theorems

* `Primitive.redraws_perform`: What operators do to the picture.
* `samePicture_invariant`: All else leaves the picture alone.
* `Process.samePicture_step`: So does a step that performs no operator.
* `Process.redraws_step`: What a step does to the picture.
* `Process.picture_after`: What operators keep of a picture is kept all along.
-/

namespace PathScript

/-- Two states with the same graphics state, the same ones to return to and the same
    drawing. -/
structure State.SamePicture (s s' : State) : Prop where
  graphics : s'.graphics = s.graphics
  saved : s'.saved = s.saved
  drawing : s'.drawing = s.drawing

/-- Whether an operator does no more to the picture than alter the graphics state. -/
def Primitive.onlyAlters (op : Primitive) : Bool :=
  !([Primitive.fill, .stroke, .gsave, .grestore].contains op)

namespace State

variable {s s' : State}

theorem SamePicture.refl (s : State) : s.SamePicture s := ⟨rfl, rfl, rfl⟩

/-- A point that is the image of two numbers that are held. -/
def Images (s : State) (p : Point) : Prop :=
  ∃ x y, s.Holds (.real x) ∧ s.Holds (.real y) ∧ s.graphics.ctm.image? ⟨x, y⟩ = some p

/-- An instruction that an operator can add to the path: one that leads to images of
    numbers that are held, or one that is in the path already. -/
inductive Draws (s : State) : Instruction → Prop where
  | move {p : Point} : s.Images p → Draws s (.move p)
  | line {p : Point} : s.Images p → Draws s (.line p)
  | cubic {p q r : Point} : s.Images p → s.Images q → s.Images r → Draws s (.cubic p q r)
  | again {i : Instruction} : i ∈ s.graphics.path → Draws s i

/-- What an operator can make of the graphics state with the numbers that are held. -/
inductive Alters (s : State) : GraphicsState → Prop where
  | keep : Alters s s.graphics
  | extend {i : Instruction} : s.Draws i → Alters s (s.graphics.extend i)
  | clear : Alters s s.graphics.clearPath
  | concatenate {m ctm : Matrix} : (∀ x ∈ m.toList, s.Holds (.real x)) →
      m.mul? s.graphics.ctm = some ctm → Alters s { s.graphics with ctm := ctm }
  | lineCap (cap : LineCap) : Alters s { s.graphics with lineCap := cap }
  | lineJoin (join : LineJoin) : Alters s { s.graphics with lineJoin := join }
  | lineWidth {x : Binary64} : s.Holds (.real x) →
      Alters s { s.graphics with lineWidth := x.abs }
  | miterLimit {x : Binary64} : s.Holds (.real x) → x.lt .one = false →
      Alters s { s.graphics with miterLimit := x }

/-- What an operator makes of the picture. -/
inductive Redraws (s s' : State) : Primitive → Prop where
  | alters {op : Primitive} : op.onlyAlters = true → s.Alters s'.graphics →
      s'.saved = s.saved → s'.drawing = s.drawing → Redraws s s' op
  | paints {op : Primitive} : op = .fill ∨ op = .stroke →
      s'.graphics = s.graphics.clearPath → s'.saved = s.saved →
      s'.drawing = s.drawing ++ s.graphics.path → Redraws s s' op
  | saves : s'.graphics = s.graphics → s'.saved = s.graphics :: s.saved →
      s'.drawing = s.drawing → Redraws s s' .gsave
  | restores : s.saved = s'.graphics :: s'.saved → s'.drawing = s.drawing →
      Redraws s s' .grestore

/-- An operator that leaves the picture alone. -/
theorem SamePicture.redraws (h : s.SamePicture s') {op : Primitive} (hop : op.onlyAlters = true) :
    s.Redraws s' op := by
  refine .alters hop ?_ h.saved h.drawing
  rw [h.graphics]
  exact .keep

/-- Operands that are taken off the stack are on it. -/
theorem mem_operands (taken : List Cell) {rest : List Cell} (h : s.operands = taken ++ rest) :
    ∀ cell ∈ taken, cell ∈ s.operands := by
  intro cell hcell
  rw [h]
  exact List.mem_append_left rest hcell

/-- What lies on the operand stack is held. -/
theorem holds_of_mem {value : Value} {object : Option Identity}
    (h : ⟨value, object⟩ ∈ s.operands) : s.Holds value :=
  Or.inl ⟨⟨value, object⟩, h, .self⟩

/-- The items of an array on the operand stack are held. -/
theorem holds_item {identity : Identity} {items : List Value} {object : Option Identity}
    {item : Value} (h : ⟨.array identity items, object⟩ ∈ s.operands) (hitem : item ∈ items) :
    s.Holds item :=
  Or.inl ⟨⟨.array identity items, object⟩, h, .item hitem .self⟩

theorem toDevice_eq_ok_iff {x y : Binary64} {p : Point} :
    s.toDevice x y = .ok p ↔ s.graphics.ctm.image? ⟨x, y⟩ = some p := by
  unfold toDevice
  cases s.graphics.ctm.image? ⟨x, y⟩ with
  | none => simp only [reduceCtorEq]
  | some q => simp only [Except.ok.injEq, Option.some.injEq]

/-- The device coordinates of two operands. -/
theorem images_of_toDevice {x y : Binary64} {object other : Option Identity} {p : Point}
    (hx : ⟨.real x, other⟩ ∈ s.operands) (hy : ⟨.real y, object⟩ ∈ s.operands)
    (h : s.toDevice x y = .ok p) : s.Images p :=
  ⟨x, y, holds_of_mem hx, holds_of_mem hy, toDevice_eq_ok_iff.mp h⟩

/-- A change of the operands leaves the picture alone. -/
theorem samePicture_onOperands {change : List Cell → Except Complaint (List Cell)}
    (h : s.onOperands change = .ok s') : s.SamePicture s' := by
  rcases onOperands_eq_ok_iff.mp h with ⟨operands, _, rfl⟩
  exact ⟨rfl, rfl, rfl⟩

theorem samePicture_push? {limits : Settings} {value : Value}
    (h : s.push? limits value = .ok s') : s.SamePicture s' := by
  rcases push?_eq_ok_iff.mp h with ⟨_, rfl⟩
  exact ⟨rfl, rfl, rfl⟩

/-- Moving the pen and adding a straight line. -/
theorem redraws_drawTo {instruction : Point → Instruction} {op : Primitive}
    (hop : op.onlyAlters = true) (hdraws : ∀ p, s.Images p → s.Draws (instruction p))
    (h : s.drawTo instruction = .ok s') : s.Redraws s' op := by
  rcases (drawTo_eq_ok_iff instruction).mp h with ⟨x, y, object, other, rest, p, hoperands, hp, rfl⟩
  have hmem := mem_operands [_, _] hoperands
  simp only [List.forall_mem_cons] at hmem
  rcases hmem with ⟨hy, hx, _⟩
  exact .alters hop (.extend (hdraws p (images_of_toDevice hx hy hp))) rfl rfl

theorem redraws_curveTo (h : s.curveTo = .ok s') : s.Redraws s' .curveto := by
  rcases curveTo_eq_ok_iff.mp h with ⟨x₁, y₁, x₂, y₂, x₃, y₃, a₁, b₁, a₂, b₂, a₃, b₃, rest, p, q,
    r, hoperands, hp, hq, hr, rfl⟩
  have hmem := mem_operands [_, _, _, _, _, _] hoperands
  simp only [List.forall_mem_cons] at hmem
  rcases hmem with ⟨hy₃, hx₃, hy₂, hx₂, hy₁, hx₁, _⟩
  exact .alters rfl (.extend (.cubic (images_of_toDevice hx₁ hy₁ hp)
    (images_of_toDevice hx₂ hy₂ hq) (images_of_toDevice hx₃ hy₃ hr))) rfl rfl

theorem redraws_closePath : s.Redraws s.closePath .closepath := by
  unfold closePath
  split
  · next first rest hpath =>
      have hfirst : first ∈ s.graphics.path := by
        rw [hpath]
        exact List.mem_cons_self
      exact .alters rfl (.extend (.again hfirst)) rfl rfl
  · exact (SamePicture.refl s).redraws rfl

end State

/-- Values that are all numbers are those numbers. -/
theorem Value.eq_map_of_mapM_real {items : List Value} {numbers : List Binary64}
    (h : items.mapM Value.real? = some numbers) : items = numbers.map .real := by
  induction items generalizing numbers with
  | nil =>
      rw [List.mapM_nil] at h
      rw [← Option.some.inj h]
      rfl
  | cons item items ih =>
      rw [List.mapM_cons] at h
      rcases Option.bind_eq_some_iff.mp h with ⟨x, hx, h⟩
      rcases Option.bind_eq_some_iff.mp h with ⟨others, hothers, h⟩
      -- Only a number is one.
      have hitem : item = .real x := by
        cases item with
        | real y => rw [Option.some.inj hx]
        | _ => exact absurd hx (by simp only [real?, reduceCtorEq, not_false_eq_true])
      rw [← Option.some.inj h, List.map_cons, ← ih hothers, hitem]

/-- The entries of a matrix are those it was made of. -/
theorem Matrix.toList_of_ofList? {numbers : List Binary64} {m : Matrix}
    (h : ofList? numbers = some m) : m.toList = numbers := by
  unfold ofList? at h
  split at h
  · rw [← Option.some.inj h]
    rfl
  · cases h

/-- The entries of a map that is taken from an array on the operand stack are held. -/
theorem State.holds_entries {s : State} {identity : Identity} {items : List Value}
    {object : Option Identity} {m : Matrix} (h : ⟨.array identity items, object⟩ ∈ s.operands)
    (hm : (items.mapM Value.real?).bind Matrix.ofList? = some m) :
    ∀ x ∈ m.toList, s.Holds (.real x) := by
  rcases Option.bind_eq_some_iff.mp hm with ⟨numbers, hnumbers, hm⟩
  intro x hx
  rw [Matrix.toList_of_ofList? hm] at hx
  refine holds_item h ?_
  rw [Value.eq_map_of_mapM_real hnumbers]
  exact List.mem_map_of_mem hx

theorem State.redraws_concatenate {s s' : State} (h : s.concatenate = .ok s') :
    s.Redraws s' .concat := by
  rcases concatenate_eq_ok_iff.mp h with
    ⟨identity, items, object, rest, m, ctm, hoperands, _, hm, hctm, rfl⟩
  have harray := mem_operands [_] hoperands _ List.mem_cons_self
  exact .alters rfl (.concatenate (holds_entries harray hm) hctm) rfl rfl

/-- What operators do to the picture. -/
theorem Primitive.redraws_perform {limits : Settings} {op : Primitive} {s s' : State}
    (h : op.perform limits s = .ok s') : s.Redraws s' op := by
  -- Paths and painting come first, then maps and styles, then all that works on operands
  -- and names only.
  cases op with
  | closepath =>
      rw [← Except.ok.inj h]
      exact State.redraws_closePath
  | curveto => exact State.redraws_curveTo h
  | lineto => exact State.redraws_drawTo rfl (fun _ => .line) h
  | moveto => exact State.redraws_drawTo rfl (fun _ => .move) h
  | newpath | eofill =>
      rw [← Except.ok.inj h]
      exact .alters rfl .clear rfl rfl
  | fill =>
      rw [← Except.ok.inj h]
      exact .paints (Or.inl rfl) rfl rfl rfl
  | stroke =>
      rw [← Except.ok.inj h]
      exact .paints (Or.inr rfl) rfl rfl rfl
  | concat => exact State.redraws_concatenate h
  | grestore =>
      rcases State.restore_eq_ok_iff.mp h with ⟨g, saved, hsaved, rfl⟩
      exact .restores hsaved rfl
  | gsave =>
      rcases State.save_eq_ok_iff.mp h with ⟨_, rfl⟩
      exact .saves rfl rfl rfl
  | setlinecap =>
      rcases State.setLineCap_eq_ok_iff.mp h with ⟨x, object, rest, cap, _, _, rfl⟩
      exact .alters rfl (.lineCap cap) rfl rfl
  | setlinejoin =>
      rcases State.setLineJoin_eq_ok_iff.mp h with ⟨x, object, rest, join, _, _, rfl⟩
      exact .alters rfl (.lineJoin join) rfl rfl
  | setlinewidth =>
      rcases State.setLineWidth_eq_ok_iff.mp h with ⟨x, object, rest, hoperands, rfl⟩
      have hx := State.mem_operands [_] hoperands _ List.mem_cons_self
      exact .alters rfl (.lineWidth (State.holds_of_mem hx)) rfl rfl
  | setmiterlimit =>
      rcases State.setMiterLimit_eq_ok_iff.mp h with ⟨x, object, rest, hoperands, hlow, rfl⟩
      have hx := State.mem_operands [_] hoperands _ List.mem_cons_self
      exact .alters rfl (.miterLimit (State.holds_of_mem hx) hlow) rfl rfl
  | add | div | mul | neg | sub | eq | ge | gt | le | lt | ne | not | exch | pop | roll =>
      exact (State.samePicture_onOperands h).redraws rfl
  | setgray =>
      rcases State.dropGray_eq_ok_iff.mp h with ⟨_, _, _, _, rfl⟩
      exact .alters rfl .keep rfl rfl
  | setrgbcolor =>
      rcases State.dropColor_eq_ok_iff.mp h with ⟨_, _, _, _, _, _, _, _, rfl⟩
      exact .alters rfl .keep rfl rfl
  | count => exact (State.samePicture_push? h).redraws rfl
  | dup =>
      rcases State.duplicate_eq_ok_iff.mp h with ⟨_, _, _, _, rfl⟩
      exact .alters rfl .keep rfl rfl
  | matrix =>
      rcases State.pushIdentity_eq_ok_iff.mp h with ⟨_, rfl⟩
      exact .alters rfl .keep rfl rfl
  | define =>
      rcases State.define_eq_ok_iff.mp h with ⟨cell, key, object, rest, _, rfl⟩
      split <;> exact .alters rfl .keep rfl rfl
  | load =>
      rcases State.load_eq_ok_iff.mp h with ⟨_, _, _, _, _, _, rfl⟩
      exact .alters rfl .keep rfl rfl
  | clear | clip | length | bind =>
      rw [← Except.ok.inj h]
      exact .alters rfl .keep rfl rfl

/-- All else leaves the picture alone. The guard excludes operators, and nothing has
    to be known of values and lexemes. -/
theorem samePicture_invariant (s : State) :
    Invariant (fun _ _ => False) (fun m => s.SamePicture m.toState) (fun _ => True)
      (fun _ => True) where
  name := fun _ => trivial
  real := fun _ _ => trivial
  literal := fun _ => trivial
  procedure := fun _ => trivial
  lookup := fun _ _ => trivial
  nil := trivial
  tail := fun _ _ => trivial
  capture := fun _ _ _ => ⟨fun _ => trivial, trivial⟩
  captureInput := fun _ _ _ _ => trivial
  next := fun h _ => h
  readBody := fun h _ => h
  skip := fun h _ => h
  push := by
    intro m value s' h _ hpush
    have hsame := State.samePicture_push? hpush
    exact ⟨hsame.graphics.trans h.graphics, hsame.saved.trans h.saved,
      hsame.drawing.trans h.drawing⟩
  pushProcedure := by
    intro m body s' h _ hpush
    rcases State.pushProcedure?_eq_ok_iff.mp hpush with ⟨_, rfl⟩
    exact ⟨h.graphics, h.saved, h.drawing⟩
  openArray := fun h => ⟨h.graphics, h.saved, h.drawing⟩
  closeArray := by
    intro m h
    rcases m.machine_closeArray with ⟨operands, marks, next, hmachine⟩
    rw [hmachine]
    exact ⟨h.graphics, h.saved, h.drawing⟩
  perform := fun _ hfalse _ => hfalse.elim
  dropOperand := fun h _ => ⟨h.graphics, h.saved, h.drawing⟩
  condition := by
    intro m target s' h hcondition
    rcases State.takeCondition_eq_ok_iff.mp hcondition with ⟨_, _, _, _, rest, _, _, _, rfl⟩
    exact ⟨⟨h.graphics, h.saved, h.drawing⟩, fun _ _ => trivial⟩
  enter := fun h _ => h
  leave := fun h => h

namespace Process

/-- A step that performs no operator leaves the picture alone. -/
theorem samePicture_step {p : Process} (h : p.performing? = none) :
    p.run.machine.SamePicture p.step.run.machine.toState := by
  have hsound : p.Sound (fun m => p.run.machine.SamePicture m.toState) (fun _ => True)
      (fun _ => True) := ⟨State.SamePicture.refl _, fun task _ => task.sound_of_true⟩
  -- The invariant is about the picture as it was just before this step.
  refine ((samePicture_invariant p.run.machine.toState).sound_step hsound fun op hop => ?_).machine
  rw [h] at hop
  cases hop

/-- A step that performs an operator and completes leads where the operator does. -/
theorem toState_step_of_performing {p : Process} {op : Primitive}
    (h : p.performing? = some op) :
    (∃ s, op.perform p.run.machine.settings p.run.machine.toState = .ok s ∧
      p.step.run.machine.toState = s) ∨ p.step.run.machine = p.run.machine := by
  rw [run_step_of_performing h]
  cases hperform : op.perform p.run.machine.settings p.run.machine.toState with
  | ok s =>
      refine Or.inl ⟨s, rfl, ?_⟩
      simp only [Machine.perform_eq, hperform, Run.machine_following, Run.machine_after]
  | error c =>
      -- An operator that objects has changed nothing.
      refine Or.inr ?_
      simp only [Machine.perform_eq, hperform, Run.machine_following, Run.machine_after, Run.failed]

/-- What a step does to the picture: nothing, or what an operator does that the step
    performs. -/
theorem redraws_step (p : Process) :
    p.run.machine.SamePicture p.step.run.machine.toState ∨
      ∃ op, p.performing? = some op ∧ p.run.machine.Redraws p.step.run.machine.toState op := by
  cases hop : p.performing? with
  | none => exact Or.inl (samePicture_step hop)
  | some op =>
      rcases toState_step_of_performing hop with ⟨s, hperform, hstep⟩ | hstep
      · rw [hstep]
        exact Or.inr ⟨op, rfl, Primitive.redraws_perform hperform⟩
      · rw [hstep]
        exact Or.inl (State.SamePicture.refl _)

/-- A property of pictures that operators keep, given what is known of the states on
    the way, is kept all along. -/
theorem picture_after {J : State → Prop} {K : Machine → Prop} {p : Process}
    (hsame : ∀ {s s' : State}, s.SamePicture s' → J s → J s')
    (hredraws : ∀ {m : Machine} {s' : State} {op : Primitive}, K m → m.Redraws s' op →
      J m.toState → J s')
    (hknown : ∀ k, K (p.after k).run.machine) (h : J p.run.machine.toState) (n : Nat) :
    J (p.after n).run.machine.toState := by
  induction n with
  | zero => exact h
  | succ n ih =>
      rw [after_succ]
      -- An operator works on the state before the step, of which something is known.
      rcases (p.after n).redraws_step with hpicture | ⟨op, _, hpicture⟩
      · exact hsame hpicture ih
      · exact hredraws (hknown n) hpicture ih

end Process

end PathScript
