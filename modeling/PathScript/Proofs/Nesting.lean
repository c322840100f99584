import PathScript.Proofs.Termination

/-!
# Nested Tasks

The tasks of a process that runs a source come in a certain order. What is
left of a body is always followed by leaving the procedure it belongs to, and
the source is only read on when nothing else is left to do. So the nesting
level of the machine is the number of procedures that are yet to be left, and
whatever is run at a level above the outermost is part of a body.

`Nested` is that order, as a grammar of lists of tasks that counts levels. A
step keeps to it: doing a task may put the execution of one value before what
is left, or enter a procedure, or leave one, and dropping a task after a fault
leaves the others in order.

## Main definitions

* `Nested`: Tasks in order, with the number of procedures to leave.
* `Process.Begins`: What comes of a lexeme or an operator.

## Theorems

* `nested_perform`: Doing a task keeps to the order.
* `nested_step`, `nested_after`: So do steps.
* `Nested.depth_pos_of_list`, `Nested.source_alone`: Where bodies and the source
  are run.
-/

namespace PathScript

/-- Tasks in order, with the number of procedures to leave: the source is read last,
    and a body is followed by leaving its procedure. -/
inductive Nested : Nat → List Task → Prop where
  | nothing : Nested 0 []
  | source : Nested 0 [.run .input]
  | body (lexemes : List String) {depth : Nat} {rest : List Task} :
      Nested depth rest → Nested (depth + 1) (.run (.list lexemes) :: .leave :: rest)
  | leave {depth : Nat} {rest : List Task} :
      Nested depth rest → Nested (depth + 1) (.leave :: rest)
  | execute (value : Value) (name : String) {depth : Nat} {rest : List Task} :
      Nested depth rest → Nested depth (.execute value name :: rest)

/-- What comes of a lexeme or an operator: at most one value is left to execute, at
    the level where the machine was. -/
structure Process.Begins (m : Machine) (p : Process) : Prop where
  level : m.SameLevel p.run.machine
  tasks : p.tasks = [] ∨ ∃ value name, p.tasks = [.execute value name]

namespace Machine

theorem begins_finished {m : Machine} {r : Run} (h : m.SameLevel r.machine) :
    (Process.finished r).Begins m := ⟨h, Or.inl rfl⟩

/-- What a lexeme does that is not a name keeps to the level. -/
theorem sameLevel_stepPlain {m : Machine} {lexeme : String} (h : isName lexeme = false) :
    m.SameLevel (m.stepPlain lexeme).machine := by
  have hstep := sameLevel_step (callerAt 0) (callerAt_level 0) lexeme m
  rw [step_eq_ite, h] at hstep
  exact hstep

theorem begins_beginLexeme (m : Machine) (lexeme : String) :
    (m.beginLexeme lexeme).Begins m := by
  unfold beginLexeme
  cases hname : isName lexeme with
  | true =>
      simp only [if_true, beginName]
      split
      · exact ⟨SameLevel.refl m, Or.inr ⟨_, _, rfl⟩⟩
      · exact begins_finished (SameLevel.refl m)
  | false => exact begins_finished (sameLevel_stepPlain hname)

theorem begins_beginOperator (m : Machine) (op : Operator) : (m.beginOperator op).Begins m := by
  cases op with
  | primitive p => exact begins_finished (sameLevel_perform m p)
  | findfont => exact begins_finished (sameLevel_findFont m)
  | conditional =>
      change m.beginConditional.Begins m
      unfold beginConditional
      split
      · exact begins_finished (SameLevel.refl m)
      · exact begins_finished ⟨rfl, rfl⟩
      · exact ⟨⟨rfl, rfl⟩, Or.inr ⟨_, _, rfl⟩⟩

end Machine

/-- What comes of a lexeme or an operator goes before tasks that are in order. -/
theorem Process.Begins.nested {m : Machine} {p : Process} (h : p.Begins m) {rest : List Task}
    (hrest : Nested m.depth rest) : Nested p.run.machine.depth (p.tasks ++ rest) := by
  rw [h.level.depth_eq]
  rcases h.tasks with htasks | ⟨value, name, htasks⟩
  · rw [htasks]
    exact hrest
  · rw [htasks]
    exact .execute value name hrest

section

variable {m : Machine}

/-- Asking the source for a lexeme and acting on it. -/
theorem nested_perform_source (h : m.depth = 0) :
    Nested ((Task.run .input).perform m).run.machine.depth ((Task.run .input).perform m).tasks := by
  -- Reading and capturing enter no procedure, so the source can come after whatever
  -- is begun.
  have hread : m.nextLexeme.2.depth = 0 := m.sameLevel_nextLexeme.depth_eq.trans h
  have hsource : Nested m.nextLexeme.2.depth [.run .input] := by
    rw [hread]
    exact .source
  have hended : Nested m.nextLexeme.2.depth [] := by
    rw [hread]
    exact .nothing
  unfold Task.perform Supply.take
  rcases hnext : m.nextLexeme with ⟨found, rest⟩
  rw [hnext] at hsource hended
  rcases found with fault | _ | lexeme
  · exact hended
  · exact hended
  · dsimp only
    split
    · have hcapture := rest.sameLevel_captureInput lexeme
      change Nested (rest.captureInput lexeme).machine.depth [.run .input]
      rw [hcapture.depth_eq]
      exact hsource
    · exact (rest.begins_beginLexeme lexeme).nested hsource

/-- Running what is left of a body. -/
theorem nested_perform_list (lexemes : List String) {depth : Nat} {rest : List Task}
    (hdepth : m.depth = depth + 1) (hrest : Nested depth rest) :
    Nested ((Task.run (.list lexemes)).perform m).run.machine.depth
      (((Task.run (.list lexemes)).perform m).tasks ++ .leave :: rest) := by
  -- However much is left of the body, leaving the procedure comes after it.
  have hbody : ∀ left, Nested m.depth (.run (.list left) :: .leave :: rest) := by
    intro left
    rw [hdepth]
    exact .body left hrest
  cases lexemes with
  | nil =>
      change Nested m.depth (.leave :: rest)
      rw [hdepth]
      exact .leave hrest
  | cons lexeme others =>
      simp only [Task.perform, Supply.take]
      split
      · simp only [Supply.capture]
        split
        · exact hbody []
        · next body left _ =>
            have hpushed := Machine.sameLevel_pushCaptured m lexeme body
            change Nested (m.pushCaptured lexeme body).machine.depth (.run (.list left) :: _)
            rw [hpushed.depth_eq]
            exact hbody left
      · rw [List.append_assoc]
        exact (m.begins_beginLexeme lexeme).nested (hbody others)

/-- Executing a value: a procedure is entered together with leaving it. -/
theorem nested_beginValue (value : Value) (name : String) {rest : List Task}
    (hrest : Nested m.depth rest) :
    Nested (m.beginValue name value).run.machine.depth ((m.beginValue name value).tasks ++ rest) := by
  cases value with
  | operator op => exact (m.begins_beginOperator op).nested hrest
  | procedure identity body =>
      simp only [Machine.beginValue, Machine.enter]
      split
      · exact .body body hrest
      · exact hrest
  | literal identity inner =>
      exact (Machine.begins_finished
        (m.sameLevel_ofChange name (m.push? m.settings inner))).nested hrest
  | real x => exact hrest
  | name text => exact hrest
  | bool b => exact hrest
  | array identity items => exact hrest

/-- Doing a task keeps to the order. -/
theorem nested_perform {task : Task} {rest : List Task} (h : Nested m.depth (task :: rest)) :
    Nested (task.perform m).run.machine.depth ((task.perform m).tasks ++ rest) := by
  -- The cases are those of the order: it says which tasks there are and at which level.
  generalize hdepth : m.depth = depth at h
  cases h with
  | source =>
      rw [List.append_nil]
      exact nested_perform_source hdepth
  | body lexemes hrest => exact nested_perform_list lexemes hdepth hrest
  | leave hrest =>
      change Nested m.leave.depth rest
      rw [Machine.leave, hdepth]
      exact hrest
  | execute value name hrest => exact nested_beginValue value name (by rwa [hdepth])

/-- Dropping a task leaves the others in order. -/
theorem nested_abandon {task : Task} {rest : List Task} (h : Nested m.depth (task :: rest)) :
    Nested (task.abandon m).depth rest := by
  generalize hdepth : m.depth = depth at h
  cases h with
  | source =>
      change Nested m.depth []
      rw [hdepth]
      exact .nothing
  | body lexemes hrest =>
      change Nested m.depth (.leave :: _)
      rw [hdepth]
      exact .leave hrest
  | leave hrest =>
      change Nested m.leave.depth rest
      rw [Machine.leave, hdepth]
      exact hrest
  | execute value name hrest =>
      change Nested m.depth rest
      rwa [hdepth]

end

/-- A step keeps to the order. -/
theorem nested_step {p : Process} (h : Nested p.run.machine.depth p.tasks) :
    Nested p.step.run.machine.depth p.step.tasks := by
  rcases p with ⟨tasks, r⟩
  cases tasks with
  | nil => exact h
  | cons task tasks =>
      rcases Option.eq_none_or_eq_some r.fault? with hnone | ⟨f, hsome⟩
      · rw [Process.step_of_none hnone]
        exact nested_perform h
      · rw [Process.step_of_fault hsome]
        exact nested_abandon h

/-- So do any number of steps from a machine that is not inside a procedure. -/
theorem nested_after {m : Machine} (h : m.depth = 0) (n : Nat) :
    Nested ((Process.start m .input).after n).run.machine.depth
      ((Process.start m .input).after n).tasks := by
  induction n with
  | zero =>
      change Nested m.depth [.run .input]
      rw [h]
      exact .source
  | succ n ih =>
      rw [Process.after_succ]
      exact nested_step ih

/-- A list of lexemes that is run is part of a body. -/
theorem Nested.depth_pos_of_list {depth : Nat} {lexemes : List String} {rest : List Task}
    (h : Nested depth (.run (.list lexemes) :: rest)) : 0 < depth := by
  cases h with
  | body _ _ => exact Nat.succ_pos _

/-- The source is run outside all procedures and with nothing else left to do. -/
theorem Nested.source_alone {depth : Nat} {rest : List Task}
    (h : Nested depth (.run .input :: rest)) : depth = 0 ∧ rest = [] := by
  cases h with
  | source => exact ⟨rfl, rfl⟩

end PathScript
