import PathScript.Proofs.Picture
import PathScript.Proofs.Termination

/-!
# What Ends Up in the Drawing

The drawing is only ever added to, and what is added is what was painted.

A path can be painted more than once. Painting empties the path, but a copy of
it may wait among the graphics states that the program has kept, and coming
back to that one brings the path back as it was. So what a drawing consists of
cannot be told from the paths that were built, only from the steps that were
taken. Each step that performs a painting operator adds the path of that moment
to the end of the drawing and leaves an empty path behind; no other step touches
the drawing at all, whether it changes the path, keeps or brings back a graphics
state, or ends in a fault. The drawing of a whole run is those paths put
together.

The run tells the same story by its events, in the same order, although the
events do not influence it.

## Main definitions

* `Process.painting?`: The path that the next step paints.
* `Process.paintings`: The paths that a number of steps paint, in order.
* `Run.paintings`: The paths that were painted according to the events of a run.

## Theorems

* `Process.drawing_step`, `Process.drawing_after`: What steps add to the drawing.
* `Process.path_step_of_painting`: Painting leaves an empty path.
* `Process.drawing_extends`: What is in the drawing stays there.
* `Task.paintings_perform`: Only a painting operator tells of a painting.
* `Process.paintings_step`, `Process.paintings_after`: The events of a run tell what
  was painted.
* `drawing_is_what_was_painted`: All of this for whole runs.
-/

namespace PathScript

/-- Whether an operator paints the path. -/
def Primitive.paints : Primitive → Bool
  | .fill => true
  | .stroke => true
  | _ => false

/-- The path that an event tells was painted. -/
def Event.painting? : Event → Option (List Instruction)
  | .painted _ path => some path
  | _ => none

/-- The paths that were painted according to the events of a run, in order. -/
def Run.paintings (r : Run) : List (List Instruction) := r.events.filterMap Event.painting?

namespace Process

/-- The path that the next step paints, if it performs a painting operator: the one
    under construction when the step is taken. -/
def painting? (p : Process) : Option (List Instruction) :=
  if p.performing?.any Primitive.paints then some p.run.machine.graphics.path else none

/-- The paths that the first steps of a process paint, in the order of the steps. -/
def paintings (p : Process) (n : Nat) : List (List Instruction) :=
  (List.range n).filterMap fun k => (p.after k).painting?

theorem paintings_succ (p : Process) (n : Nat) :
    p.paintings (n + 1) = p.paintings n ++ (p.after n).painting?.toList := by
  simp only [paintings, List.range_succ, List.filterMap_append]
  cases hpainting : (p.after n).painting? with
  | none => simp [hpainting]
  | some path => simp [hpainting]

theorem painting_of_performing {p : Process} {op : Primitive} (h : p.performing? = some op) :
    p.painting? = if op.paints then some p.run.machine.graphics.path else none := by
  rw [painting?, h, Option.any_some]

theorem painting_of_none {p : Process} (h : p.performing? = none) : p.painting? = none := by
  rw [painting?, h]
  rfl

end Process

/-- An operator that does not paint leaves the drawing alone. -/
theorem State.Redraws.drawing_eq {s s' : State} {op : Primitive} (h : s.Redraws s' op)
    (hop : op.paints = false) : s'.drawing = s.drawing := by
  cases h with
  | alters _ _ _ hdrawing => exact hdrawing
  | paints hpaints _ _ _ =>
      rcases hpaints with rfl | rfl
      · cases hop
      · cases hop
  | saves _ _ hdrawing => exact hdrawing
  | restores _ hdrawing => exact hdrawing

/-- A painting operator never objects. -/
theorem Primitive.perform_of_paints {op : Primitive} (h : op.paints = true) (limits : Settings)
    (s : State) : op.perform limits s = .ok s.paint := by
  cases op with
  | fill => rfl
  | stroke => rfl
  | _ => cases h

namespace Process

/-- A step that performs a painting operator moves the path to the drawing. -/
theorem toState_step_of_paints {p : Process} {op : Primitive} (hop : p.performing? = some op)
    (hpaints : op.paints = true) : p.step.run.machine.toState = p.run.machine.paint := by
  rw [run_step_of_performing hop]
  simp only [Machine.perform_eq, Primitive.perform_of_paints hpaints, Run.machine_following,
    Run.machine_after]

/-- What a step adds to the drawing is what it paints. -/
theorem drawing_step (p : Process) :
    p.step.run.machine.drawing = p.run.machine.drawing ++ p.painting?.getD [] := by
  cases hop : p.performing? with
  | none =>
      rw [(samePicture_step hop).drawing, painting_of_none hop, Option.getD_none, List.append_nil]
  | some op =>
      rw [painting_of_performing hop]
      cases hpaints : op.paints with
      | true =>
          rw [toState_step_of_paints hop hpaints]
          rfl
      | false =>
          rw [if_neg Bool.false_ne_true, Option.getD_none, List.append_nil]
          -- The operator may also have objected.
          rcases toState_step_of_performing hop with ⟨s, hperform, hstep⟩ | hstep
          · rw [hstep]
            exact (Primitive.redraws_perform hperform).drawing_eq hpaints
          · rw [hstep]

/-- A step that paints leaves an empty path. -/
theorem path_step_of_painting {p : Process} (h : p.painting?.isSome = true) :
    p.step.run.machine.graphics.path = [] := by
  cases hop : p.performing? with
  | none =>
      rw [painting_of_none hop] at h
      cases h
  | some op =>
      rw [painting_of_performing hop] at h
      cases hpaints : op.paints with
      | false =>
          rw [hpaints] at h
          cases h
      | true =>
          rw [toState_step_of_paints hop hpaints]
          rfl

/-- What a number of steps add to the drawing is what they paint. -/
theorem drawing_after (p : Process) (n : Nat) :
    (p.after n).run.machine.drawing = p.run.machine.drawing ++ (p.paintings n).flatten := by
  induction n with
  | zero => simp [paintings, after]
  | succ n ih =>
      rw [after_succ, drawing_step, ih, paintings_succ, List.flatten_append, List.append_assoc]
      cases (p.after n).painting? with
      | none => rfl
      | some path => simp

/-- What is in the drawing stays there, in its place. -/
theorem drawing_extends (p : Process) {j k : Nat} (h : j ≤ k) :
    (p.after j).run.machine.drawing <+: (p.after k).run.machine.drawing := by
  have hlater := (p.after j).drawing_after (k - j)
  rw [← after_add, Nat.add_sub_cancel' h] at hlater
  rw [hlater]
  exact List.prefix_append _ _

end Process

namespace Run

theorem paintings_following (r : Run) (events : List Event) :
    (r.following events).paintings = events.filterMap Event.painting? ++ r.paintings := by
  simp [paintings, following]

/-- A run without events tells of no painting. -/
theorem paintings_of_nil {r : Run} (h : r.events = []) : r.paintings = [] := by
  rw [paintings, h]
  rfl

theorem events_ofChange (m : Machine) (command : String) (x : Except Complaint State) :
    (ofChange m command x).events = [] := by
  cases x with
  | error c => rfl
  | ok s => rfl

end Run

namespace Machine

theorem events_closeArray (m : Machine) : m.closeArray.events = [] := by
  rcases hmarks : m.marks with _ | ⟨height, marks⟩
  · rw [closeArray_of_nil hmarks]
    rfl
  · rcases Nat.lt_or_ge m.operands.length height with hlt | hle
    · rw [closeArray_of_lt hmarks hlt]
      rfl
    · rw [closeArray_of_le hmarks hle]
      split
      · rfl
      · rfl

theorem events_stepPlain (m : Machine) (lexeme : String) : (m.stepPlain lexeme).events = [] := by
  unfold stepPlain
  cases lexeme.toList with
  | nil => rfl
  | cons first rest =>
      dsimp only
      split
      · exact Run.events_ofChange m _ _
      · split
        · exact Run.events_ofChange m _ _
        · split
          · rfl
          · split
            · exact events_closeArray m
            · rfl

theorem events_beginLexeme (m : Machine) (lexeme : String) :
    (m.beginLexeme lexeme).run.events = [] := by
  unfold beginLexeme beginName
  split
  · split
    · rfl
    · rfl
  · exact events_stepPlain m lexeme

theorem events_captureInput (m : Machine) (lexeme : String) :
    (m.captureInput lexeme).events = [] := by
  unfold captureInput
  cases m.input with
  | none => rfl
  | some t =>
      dsimp only
      split
      · rfl
      · rfl
      · exact Run.events_ofChange _ _ _

/-- Passing over font definitions tells of no painting. -/
theorem paintings_findFont (m : Machine) : m.findFont.paintings = [] := by
  rcases hoperands : m.operands with _ | ⟨cell, rest⟩
  · rw [findFont_of_nil hoperands]
    rfl
  · rw [findFont_of_cons hoperands]
    unfold skipFonts
    split
    · rfl
    · dsimp only
      split
      · rfl
      · rfl
      · rfl

theorem events_beginConditional (m : Machine) : m.beginConditional.run.events = [] := by
  unfold beginConditional
  split
  · rfl
  · rfl
  · rfl

/-- Entering a procedure tells of no painting, nor does failing to. -/
theorem paintings_enter (m : Machine) (name : String) (body : List String) :
    (m.enter name body).run.paintings = [] := by
  unfold enter
  split
  · rfl
  · rfl

/-- An operator tells of a painting if and only if it paints. -/
theorem paintings_perform (m : Machine) (op : Primitive) :
    (m.perform op).paintings = if op.paints then [m.graphics.path] else [] := by
  cases hpaints : op.paints with
  | true =>
      simp only [perform_eq, Primitive.perform_of_paints hpaints]
      cases op with
      | fill => rfl
      | stroke => rfl
      | _ => cases hpaints
  | false =>
      rw [perform_eq]
      split
      · unfold Run.paintings Primitive.remarks
        dsimp only
        split
        · rfl
        · rfl
        · rfl
        · cases hpaints
        · cases hpaints
        · rfl
      · rfl

end Machine

/-- A task tells of a painting only if it is to perform a painting operator. -/
theorem Task.paintings_perform {m : Machine} {task : Task}
    (h : ∀ op name, task ≠ .execute (.operator (.primitive op)) name) :
    (task.perform m).run.paintings = [] := by
  -- What a lexeme does, from a list or from the source.
  have hlexeme : ∀ (m : Machine) (lexeme : String) (left : Supply),
      (if Machine.beginsProcedure lexeme then
        (⟨[.run (left.capture m lexeme).1], (left.capture m lexeme).2⟩ : Process)
      else ⟨(m.beginLexeme lexeme).tasks ++ [.run left], (m.beginLexeme lexeme).run⟩).run.paintings
        = [] := by
    intro m lexeme left
    split
    · cases left with
      | list lexemes =>
          unfold Supply.capture
          dsimp only
          split
          · rfl
          · exact Run.paintings_of_nil (Run.events_ofChange _ _ _)
      | input => exact Run.paintings_of_nil (m.events_captureInput lexeme)
    · exact Run.paintings_of_nil (m.events_beginLexeme lexeme)
  cases task with
  | run supply =>
      cases hsupply : supply.take m with
      | ended rest =>
          simp only [Task.perform, hsupply]
          rfl
      | unreadable rest fault =>
          simp only [Task.perform, hsupply]
          rfl
      | lexeme text left rest =>
          simp only [Task.perform, hsupply]
          exact hlexeme rest text left
  | execute value name =>
      cases value with
      | operator op =>
          cases op with
          | primitive p => exact absurd rfl (h p name)
          | findfont => exact m.paintings_findFont
          | conditional =>
              change m.beginConditional.run.paintings = []
              exact Run.paintings_of_nil m.events_beginConditional
      | procedure identity body => exact m.paintings_enter name body
      | literal identity inner => exact Run.paintings_of_nil (Run.events_ofChange _ _ _)
      | real x => rfl
      | name text => rfl
      | bool b => rfl
      | array identity items => rfl
  | leave => rfl

namespace Process

/-- What a step tells was painted is what it paints. -/
theorem paintings_step (p : Process) :
    p.step.run.paintings = p.run.paintings ++ p.painting?.toList := by
  cases hop : p.performing? with
  | some op =>
      rw [run_step_of_performing hop, Run.paintings_following, painting_of_performing hop]
      have hevents : ((p.run.machine.perform op).after (.invoked (.primitive op))).paintings
          = (p.run.machine.perform op).paintings := rfl
      rw [hevents, Machine.paintings_perform]
      cases op.paints <;> rfl
  | none =>
      rw [painting_of_none hop, Option.toList_none, List.append_nil]
      rcases p with ⟨tasks, r⟩
      cases tasks with
      | nil => rfl
      | cons task tasks =>
          rcases Option.eq_none_or_eq_some r.fault? with hnone | ⟨f, hsome⟩
          · have hother : ∀ op name, task ≠ .execute (.operator (.primitive op)) name := by
              intro op name htask
              have hperforming : performing? ⟨task :: tasks, r⟩ = some op :=
                performing_eq_some_iff.mpr ⟨hnone, name, tasks, by rw [htask]⟩
              rw [hop] at hperforming
              cases hperforming
            rw [step_of_none hnone, Run.paintings_following, Task.paintings_perform hother,
              List.append_nil]
            rfl
          · rw [step_of_fault hsome]
            rfl

/-- So it is for a number of steps. -/
theorem paintings_after (p : Process) (n : Nat) :
    (p.after n).run.paintings = p.run.paintings ++ p.paintings n := by
  induction n with
  | zero => simp [paintings, after]
  | succ n ih => rw [after_succ, paintings_step, ih, paintings_succ, List.append_assoc]

end Process

/-- The drawing is only ever added to, and it is exactly what was painted. When a run
    has ended, with a fault or without one, its drawing is the one it began with
    followed by the paths that were under construction whenever a painting operator was
    performed, in the order of the steps and at whatever depth of procedures; the events
    of the run tell of just these. On the way, a step that performs a painting operator
    puts the path at the end of the drawing and leaves an empty path, every other step
    leaves the drawing as it is, and what is in the drawing stays in its place. -/
theorem drawing_is_what_was_painted (m : Machine) (supply : Supply) :
    let p := Process.start m supply
    ∃ n, p.after n = .finished (m.runFrom supply) ∧
      (m.runFrom supply).machine.drawing = m.drawing ++ (p.paintings n).flatten ∧
      (m.runFrom supply).paintings = p.paintings n ∧
      (∀ k, (p.after k).performing?.any Primitive.paints = true →
        (p.after (k + 1)).run.machine.drawing
            = (p.after k).run.machine.drawing ++ (p.after k).run.machine.graphics.path ∧
          (p.after (k + 1)).run.machine.graphics.path = []) ∧
      (∀ k, (p.after k).performing?.any Primitive.paints = false →
        (p.after (k + 1)).run.machine.drawing = (p.after k).run.machine.drawing) ∧
      (∀ j k, j ≤ k → (p.after j).run.machine.drawing <+: (p.after k).run.machine.drawing) := by
  intro p
  rcases Process.reaches_runFrom m supply with ⟨n, hn⟩
  refine ⟨n, hn, ?_, ?_, fun k hpaints => ?_, fun k hpaints => ?_, fun j k => p.drawing_extends⟩
  · have hdrawing := p.drawing_after n
    rw [hn] at hdrawing
    exact hdrawing
  · have hpaintings := p.paintings_after n
    rw [hn] at hpaintings
    exact hpaintings
  · have hpainting : (p.after k).painting? = some (p.after k).run.machine.graphics.path :=
      if_pos hpaints
    rw [Process.after_succ, Process.drawing_step, hpainting]
    exact ⟨rfl, Process.path_step_of_painting (by rw [hpainting]; rfl)⟩
  · have hpainting : (p.after k).painting? = none := by
      rw [Process.painting?, hpaints]
      rfl
    rw [Process.after_succ, Process.drawing_step, hpainting]
    exact List.append_nil _

/-- A path that is painted inside a procedure, comes back with the graphics state and is
    painted again; then a path that is dropped, and a fault. -/
theorem drawing_is_what_was_painted_twice :
    let dot : Instruction := .move ⟨.one, .one⟩
    let m : Machine := { Machine.start Settings.standard (.text "") with drawing := [dot] }
    let supply := Supply.list ["/f", openBrace, "stroke", "grestore", closeBrace, "def",
      "1", "1", "moveto", "gsave", "f", "fill", "1", "1", "moveto", "eofill", "grestore"]
    (m.runFrom supply).fault?.isSome = true ∧
    ∃ n, (Process.start m supply).after n = .finished (m.runFrom supply) ∧
      (Process.start m supply).paintings n = [[dot], [dot]] ∧
      (m.runFrom supply).machine.drawing = [dot, dot, dot] := by
  intro dot m supply
  have hend : let p := Process.start m supply
      (p.after 40).tasks.isEmpty = true ∧ (p.after 40).run.fault?.isSome = true ∧
        (p.after 40).run.paintings = [[dot], [dot]] := by decide +kernel
  rcases hend with ⟨htasks, hfault, hpainted⟩
  have hrun : m.runFrom supply = ((Process.start m supply).after 40).run :=
    Process.runFrom_eq_of_tasks_nil (List.isEmpty_iff.mp htasks)
  rw [← hrun] at hfault hpainted
  rcases drawing_is_what_was_painted m supply with ⟨n, hn, hdrawing, hpaintings, _⟩
  rw [hpainted] at hpaintings
  refine ⟨hfault, n, hn, hpaintings.symm, ?_⟩
  rw [hdrawing, ← hpaintings]
  rfl

end PathScript
