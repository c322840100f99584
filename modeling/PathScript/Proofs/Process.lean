import PathScript.Interpreter

/-!
# Processes

Running a program one step at a time.

A run is defined by recursion on the levels of procedures that are still
allowed, and says only where a machine ends up. Much of what there is to say
about programs is about the states on the way, and those are inside the
recursion. A process makes them visible. It is a run so far together with the
tasks that are still to be done, the next one first: lexemes to run, a value
to execute, a procedure to leave. A step does the first task, which may put
others in its place. After a fault the remaining tasks are not done but
dropped, and all that dropping a task can change is the nesting level, as a
procedure that is left early is left all the same.

Nothing in a step bounds the number of steps. A procedure is entered as long
as the nesting level is below its limit, and that is the only limit there is
on what a process does. That processes end, and end where runs do, is the
subject of `Proofs.Termination`.

## Main definitions

* `Supply`: Where the lexemes to run come from.
* `Task`: Something still to be done.
* `Process`: A run so far and the tasks still to be done.
* `Task.perform`: What doing a task comes to.
* `Process.step`, `Process.after`: One step, and a number of steps.
* `Process.performing?`: The primitive operator that the next step performs.
* `Process.Reaches`: Some number of steps leads from one process to another.
* `Run.PartOf`: A run whose fault and events another run keeps.

## Theorems

* `Machine.step_eq_ite`: A lexeme is a name to execute or needs no caller.
* `Machine.step_openBracket`, `Machine.step_closeBracket`: What brackets do.
* `Machine.closeArray_of_nil`, `Machine.closeArray_of_lt`,
  `Machine.closeArray_of_le`: What a closing bracket does, case by case.
* `Machine.machine_closeArray`: All that it can change.
* `Machine.findFont_of_nil`, `Machine.findFont_of_cons`: Passing over font
  definitions, with and without the name of a font.
* `Process.step_of_fault`, `Process.step_of_none`: What a step does after a
  fault, and what it does without one.
* `Process.run_step_of_performing`: What it does if it performs an operator.
* `Process.after_add`: Splitting a number of steps.
* `Process.after_finished`: A finished process stays as it is.
* `Process.forall_after`: What holds until nothing is left to do.
* `Process.partOf_step`: A process keeps its fault and its events.
* `Process.exists_step_of_fault`: A fault comes about in some step.
* `Process.eq_of_reaches_finished`: A process ends in one way only.
-/

namespace PathScript

/-- Where the lexemes to run come from: a list, or the source of the
    machine. -/
inductive Supply where
  | list (lexemes : List String)
  | input

/-- Something still to be done. -/
inductive Task where
  /-- Run lexemes until there are no more. -/
  | run (supply : Supply)
  /-- Execute a value under a name. -/
  | execute (value : Value) (name : String)
  /-- Leave a procedure. -/
  | leave

/-- A run so far, and the tasks still to be done, the next one first. -/
structure Process where
  tasks : List Task
  run : Run

namespace Process

/-- A process with nothing left to do. -/
def finished (r : Run) : Process := ⟨[], r⟩

/-- A process with an event before it. -/
def noting (event : Event) (p : Process) : Process := ⟨p.tasks, p.run.after event⟩

end Process

namespace Machine

/-- Whether a lexeme is a name to execute. -/
def isName (lexeme : String) : Bool := lexeme.toList.head?.any isLetter

/-- What a lexeme does that is not a name to execute and does not begin a
    procedure. -/
def stepPlain (lexeme : String) (m : Machine) : Run :=
  match lexeme.toList with
  | [] => .failed m .emptyLexeme
  | first :: rest =>
      if first = nameMark then
        .ofChange m lexeme (m.push? m.settings (.name (String.ofList rest)))
      else if startsNumber first then
        .ofChange m lexeme ((readNumber lexeme).bind fun x => m.push? m.settings (.real x))
      else if first = '[' then .done m.openArray
      else if first = ']' then m.closeArray
      else .failed m (m.fault lexeme (.plain .unknownToken))

/-- A lexeme is a name to execute, or what it does has nothing to do with how
    procedures are invoked. -/
theorem step_eq_ite (call : Caller) (lexeme : String) (m : Machine) :
    m.step call lexeme
      = if isName lexeme then m.executeName call lexeme else m.stepPlain lexeme := by
  -- A solidus is no letter, so it does not matter which of the two is looked for first.
  have hmark : isLetter nameMark = false := by decide +kernel
  unfold step stepPlain isName
  cases lexeme.toList with
  | nil => rfl
  | cons first rest =>
      simp only [List.head?_cons, Option.any_some]
      by_cases hname : first = nameMark
      · have hletter : ¬ isLetter first = true := by rw [hname, hmark]; exact Bool.false_ne_true
        simp only [if_pos hname, if_neg hletter]
      · simp only [if_neg hname]

/-- An open bracket is accepted. -/
theorem step_openBracket (call : Caller) (m : Machine) : m.step call "[" = .done m.openArray := by
  have hname : ¬ isName "[" = true := by decide +kernel
  rw [step_eq_ite, if_neg hname]
  rfl

/-- A closing bracket gathers an array. -/
theorem step_closeBracket (call : Caller) (m : Machine) : m.step call "]" = m.closeArray := by
  have hname : ¬ isName "]" = true := by decide +kernel
  rw [step_eq_ite, if_neg hname]
  rfl

/-- The machine after an open bracket is forgotten and the operands above it are
    taken off. -/
def cleared (m : Machine) (height : Nat) (marks : List Nat) : Machine :=
  { m with marks := marks, operands := m.operands.drop (m.operands.length - height) }

/-- The operands above an open bracket, the lowest first. -/
def gathered (m : Machine) (height : Nat) : List Value :=
  (m.operands.take (m.operands.length - height)).reverse.map (·.value)

/-- A closing bracket without an open one. -/
theorem closeArray_of_nil {m : Machine} (hmarks : m.marks = []) :
    m.closeArray = .failed m (m.fault "]" (.plain .unmatchedBracket)) := by
  simp only [closeArray, hmarks]

/-- A closing bracket when operands below the open one have been consumed. -/
theorem closeArray_of_lt {m : Machine} {height : Nat} {marks : List Nat}
    (hmarks : m.marks = height :: marks) (hheight : m.operands.length < height) :
    m.closeArray = .failed { m with marks := marks } (m.fault "]" (.plain .stackUnderflow)) := by
  simp only [closeArray, hmarks, if_pos hheight]
  rfl

/-- A closing bracket with operands to gather. -/
theorem closeArray_of_le {m : Machine} {height : Nat} {marks : List Nat}
    (hmarks : m.marks = height :: marks) (hheight : height ≤ m.operands.length) :
    m.closeArray
      = if (m.cleared height marks).hasRoom m.settings then
          .done { m with toState := (m.cleared height marks).pushArray (m.gathered height) }
        else .failed (m.cleared height marks) (m.fault "]" (.plain .stackOverflow)) := by
  simp only [closeArray, hmarks, if_neg (Nat.not_lt.mpr hheight)]
  rfl

/-- All that a closing bracket can change, whether it fails or not. -/
theorem machine_closeArray (m : Machine) :
    ∃ operands marks next, m.closeArray.machine
      = { m with operands := operands, marks := marks, nextIdentity := next } := by
  rcases hmarks : m.marks with _ | ⟨height, marks⟩
  · rw [closeArray_of_nil hmarks]
    exact ⟨m.operands, m.marks, m.nextIdentity, rfl⟩
  · rcases Nat.lt_or_ge m.operands.length height with hlt | hle
    · rw [closeArray_of_lt hmarks hlt]
      exact ⟨m.operands, marks, m.nextIdentity, rfl⟩
    · rw [closeArray_of_le hmarks hle]
      split
      · exact ⟨_, marks, m.nextIdentity + 1, rfl⟩
      · exact ⟨_, marks, m.nextIdentity, rfl⟩

/-- Passes over the definitions of fonts that follow in the source. -/
def skipFonts (m : Machine) : Run :=
  match m.input with
  | none => .failed m .nothingToSkip
  | some t =>
      let skipped := t.skipTo m.settings.prologMarker
      let m := { m with input := some skipped.rest }
      match skipped.found with
      | .error e => .failed m (.decoding e)
      | .ok false =>
          .failed m (m.fault Operator.findfont.name
            (.because .lexical ("stream ended before " ++ m.settings.markerText)))
      | .ok true =>
          (Run.done m).after (.skipped skipped.count m.settings.markerText skipped.rest.line)

/-- Font definitions are not passed over without the name of a font. -/
theorem findFont_of_nil {m : Machine} (hoperands : m.operands = []) :
    m.findFont = .failed m (m.fault Operator.findfont.name (.plain .stackUnderflow)) := by
  simp only [findFont, hoperands]

/-- They are passed over when the name is off the stack. -/
theorem findFont_of_cons {m : Machine} {cell : Cell} {rest : List Cell}
    (hoperands : m.operands = cell :: rest) :
    m.findFont = ({ m with operands := rest } : Machine).skipFonts := by
  simp only [findFont, hoperands]
  rfl

/-- Begins to execute what a lexeme is bound to as a name. -/
def beginName (m : Machine) (name : String) : Process :=
  match m.lookup? name with
  | some cell => ⟨[.execute cell.value name], .done m⟩
  | none => .finished (.failed m (m.fault name (.plain .undefined)))

/-- Begins what a lexeme does that does not begin a procedure. -/
def beginLexeme (m : Machine) (lexeme : String) : Process :=
  if isName lexeme then m.beginName lexeme else .finished (m.stepPlain lexeme)

/-- Begins a conditional: its operands are taken, and what it is to execute is
    left to do. -/
def beginConditional (m : Machine) : Process :=
  match m.takeCondition with
  | .error c => .finished (.failed m (m.fault Operator.conditional.name c))
  | .ok (none, s) => .finished (.done { m with toState := s })
  | .ok (some target, s) =>
      ⟨[.execute target Operator.conditional.name], .done { m with toState := s }⟩

/-- Begins an operator. -/
def beginOperator (m : Machine) : Operator → Process
  | .primitive p => .finished (m.perform p)
  | .findfont => .finished m.findFont
  | .conditional => m.beginConditional

/-- Enters a procedure if the limit on the nesting of procedures allows it. The
    body is left to run, and then the procedure to leave. -/
def enter (m : Machine) (name : String) (body : List String) : Process :=
  if (m.depth : Int) < m.settings.maxDepth then
    ⟨[.run (.list body), .leave],
      (Run.done { m with depth := m.depth + 1 }).after (.entered name body)⟩
  else .finished (.failed m (m.fault name (.plain .execStackOverflow)))

/-- Begins to execute a value under a name. -/
def beginValue (m : Machine) (name : String) : Value → Process
  | .operator op => (m.beginOperator op).noting (.invoked op)
  | .procedure _ body => m.enter name body
  | .literal _ inner => .finished (.ofChange m name (m.push? m.settings inner))
  | _ => .finished (.failed m (m.fault name (.plain .typeMismatch)))

/-- The machine after a procedure is left. -/
def leave (m : Machine) : Machine := { m with depth := m.depth - 1 }

end Machine

namespace Supply

/-- What comes of asking a supply for a lexeme. -/
inductive Taken where
  /-- There was none. -/
  | ended (m : Machine)
  /-- The source could not be read. -/
  | unreadable (m : Machine) (fault : Fault)
  /-- A lexeme, and the supply that is left. -/
  | lexeme (text : String) (left : Supply) (m : Machine)

/-- Asks a supply for a lexeme. -/
def take (m : Machine) : Supply → Taken
  | .list [] => .ended m
  | .list (lexeme :: rest) => .lexeme lexeme (.list rest) m
  | .input =>
      match m.nextLexeme with
      | (.error fault, rest) => .unreadable rest fault
      | (.ok none, rest) => .ended rest
      | (.ok (some lexeme), rest) => .lexeme lexeme .input rest

/-- Captures a procedure that a lexeme begins from a supply and pushes it. Also
    the supply that is left. -/
def capture (m : Machine) (lexeme : String) : Supply → Supply × Run
  | .list lexemes =>
      match PathScript.capture 0 lexemes with
      | .error depth => (.list [], .failed m (m.fault openBrace (Machine.unclosed depth)))
      | .ok (body, left) => (.list left, m.pushCaptured lexeme body)
  | .input => (.input, m.captureInput lexeme)

end Supply

namespace Task

/-- What doing a task comes to: what is done at once, and the tasks that take
    its place. -/
def perform (m : Machine) : Task → Process
  | .run supply =>
      match supply.take m with
      | .ended m => .finished (.done m)
      | .unreadable m fault => .finished (.failed m fault)
      | .lexeme lexeme left m =>
          if Machine.beginsProcedure lexeme then
            let (left, pushed) := left.capture m lexeme
            ⟨[.run left], pushed⟩
          else
            let begun := m.beginLexeme lexeme
            ⟨begun.tasks ++ [.run left], begun.run⟩
  | .execute value name => m.beginValue name value
  | .leave => .finished (.done m.leave)

/-- What dropping a task after a fault changes: a procedure that is left early
    is left all the same. -/
def abandon (m : Machine) : Task → Machine
  | .leave => m.leave
  | _ => m

end Task

namespace Run

/-- A run whose fault, if it has one, and whose events another run keeps. -/
structure PartOf (r s : Run) : Prop where
  fault : ∀ f, r.fault? = some f → s.fault? = some f
  events : ∀ e ∈ r.events, e ∈ s.events

theorem PartOf.refl (r : Run) : r.PartOf r := ⟨fun _ h => h, fun _ h => h⟩

theorem following_following (r : Run) (earlier events : List Event) :
    (r.following events).following earlier = r.following (earlier ++ events) := by
  simp only [following, List.append_assoc]

theorem partOf_following (r : Run) (events : List Event) : r.PartOf (r.following events) :=
  ⟨fun _ h => h, fun _ h => List.mem_append_right _ h⟩

end Run

namespace Process

/-- Does the first task, or drops it if there has been a fault. -/
def step (p : Process) : Process :=
  match p.tasks with
  | [] => p
  | task :: tasks =>
      match p.run.fault? with
      | some _ => ⟨tasks, { p.run with machine := task.abandon p.run.machine }⟩
      | none =>
          let begun := task.perform p.run.machine
          ⟨begun.tasks ++ tasks, begun.run.following p.run.events⟩

/-- A step after a fault drops the first task. -/
theorem step_of_fault {r : Run} {f : Fault} (h : r.fault? = some f) (task : Task)
    (tasks : List Task) :
    step ⟨task :: tasks, r⟩ = ⟨tasks, { r with machine := task.abandon r.machine }⟩ := by
  unfold step
  split
  · next hnil => exact absurd hnil (by simp only [reduceCtorEq, not_false_eq_true])
  · next hcons =>
      simp only [List.cons.injEq] at hcons
      rw [← hcons.1, ← hcons.2]
      -- The fault is not looked at, only that there is one.
      split
      · rfl
      · next hnone =>
          rw [hnone] at h
          exact absurd h (by simp only [reduceCtorEq, not_false_eq_true])

/-- A step without a fault does the first task. -/
theorem step_of_none {r : Run} (h : r.fault? = none) (task : Task) (tasks : List Task) :
    step ⟨task :: tasks, r⟩ = ⟨(task.perform r.machine).tasks ++ tasks,
      (task.perform r.machine).run.following r.events⟩ := by
  simp only [step, h]

/-- The primitive operator that the next step performs, if it performs one. -/
def performing? (p : Process) : Option Primitive :=
  match p.run.fault?, p.tasks with
  | none, .execute (.operator (.primitive op)) _ :: _ => some op
  | _, _ => none

/-- An operator is performed if it is the first task and there has been no fault. -/
theorem performing_eq_some_iff {p : Process} {op : Primitive} :
    p.performing? = some op ↔
      p.run.fault? = none ∧
        ∃ name tasks, p.tasks = .execute (.operator (.primitive op)) name :: tasks := by
  constructor
  · intro h
    unfold performing? at h
    split at h
    · next other name tasks hfault htasks =>
        rw [← Option.some.inj h]
        exact ⟨hfault, name, tasks, htasks⟩
    · exact absurd h (by simp only [reduceCtorEq, not_false_eq_true])
  · rintro ⟨hfault, name, tasks, htasks⟩
    unfold performing?
    rw [hfault, htasks]

/-- A step that performs an operator: what has happened so far comes before what
    the operator does. -/
theorem run_step_of_performing {p : Process} {op : Primitive} (h : p.performing? = some op) :
    p.step.run
      = ((p.run.machine.perform op).after (.invoked (.primitive op))).following p.run.events := by
  rcases performing_eq_some_iff.mp h with ⟨hfault, name, tasks, htasks⟩
  have hp : p = ⟨.execute (.operator (.primitive op)) name :: tasks, p.run⟩ := by rw [← htasks]
  rw [hp, step_of_none hfault]
  rfl

/-- The process after a number of steps. -/
def after : Nat → Process → Process
  | 0, p => p
  | n + 1, p => after n p.step

/-- Some number of steps leads from one process to another. -/
def Reaches (p q : Process) : Prop := ∃ n, p.after n = q

theorem after_add (p : Process) (m n : Nat) : p.after (m + n) = (p.after m).after n := by
  induction m generalizing p with
  | zero => rw [Nat.zero_add]; rfl
  | succ k ih =>
      rw [Nat.succ_add]
      exact ih p.step

theorem after_succ (p : Process) (n : Nat) : p.after (n + 1) = (p.after n).step :=
  after_add p n 1

theorem after_finished (r : Run) (n : Nat) : (finished r).after n = finished r := by
  induction n with
  | zero => rfl
  | succ n ih => exact ih

/-- What holds until nothing is left to do holds for ever, since a process that has
    nothing to do stays as it is. -/
theorem forall_after {P : Process → Prop} {p : Process} {n : Nat}
    (hend : (p.after n).tasks = []) (h : ∀ k ≤ n, P (p.after k)) (k : Nat) : P (p.after k) := by
  rcases Nat.le_total k n with hk | hk
  · exact h k hk
  · have hstays : p.after k = p.after n := by
      have hfinished : p.after n = finished (p.after n).run := by
        rw [finished, ← hend]
      rw [← Nat.add_sub_cancel' hk, after_add, hfinished, after_finished]
    rw [hstays]
    exact h n (Nat.le_refl n)

theorem reaches_refl (p : Process) : p.Reaches p := ⟨0, rfl⟩

theorem reaches_trans {p q r : Process} (hpq : p.Reaches q) (hqr : q.Reaches r) :
    p.Reaches r := by
  rcases hpq with ⟨m, hm⟩
  rcases hqr with ⟨n, hn⟩
  exact ⟨m + n, by rw [after_add, hm, hn]⟩

theorem reaches_step (p : Process) : p.Reaches p.step := ⟨1, rfl⟩

/-- A process ends in one way only, since a step is a function and a finished
    process stays as it is. -/
theorem eq_of_reaches_finished {p : Process} {r s : Run} (hr : p.Reaches (finished r))
    (hs : p.Reaches (finished s)) : r = s := by
  rcases hr with ⟨m, hm⟩
  rcases hs with ⟨n, hn⟩
  have hleft : p.after (m + n) = finished r := by rw [after_add, hm, after_finished]
  have hright : p.after (m + n) = finished s := by
    rw [Nat.add_comm, after_add, hn, after_finished]
  exact congrArg Process.run (hleft.symm.trans hright)

/-- A step keeps the fault and the events there have been. -/
theorem partOf_step (p : Process) : p.run.PartOf p.step.run := by
  unfold step
  split
  · exact Run.PartOf.refl _
  · split
    · exact ⟨fun f hf => hf, fun e he => he⟩
    · next hnone =>
        -- There is no fault to keep, and the events so far come before those of the task.
        refine ⟨fun f hf => ?_, fun e he => List.mem_append_left _ he⟩
        rw [hnone] at hf
        exact absurd hf (by simp only [reduceCtorEq, not_false_eq_true])

/-- A fault that has come about has come about in some step. -/
theorem exists_step_of_fault {p : Process} (hnone : p.run.fault? = none) {n : Nat} {f : Fault}
    (hf : (p.after n).run.fault? = some f) :
    ∃ k < n, (p.after k).run.fault? = none ∧ (p.after k).step.run.fault? = some f := by
  induction n with
  | zero =>
      rw [show (p.after 0).run.fault? = none from hnone] at hf
      exact absurd hf (by simp only [reduceCtorEq, not_false_eq_true])
  | succ n ih =>
      cases hearlier : (p.after n).run.fault? with
      | none =>
          rw [after_succ] at hf
          exact ⟨n, Nat.lt_succ_self n, hearlier, hf⟩
      | some g =>
          -- A fault that was there before is the one there is.
          have hkept := (p.after n).partOf_step.fault g hearlier
          rw [← after_succ, hf] at hkept
          rcases ih (hearlier.trans hkept.symm) with ⟨k, hk, hstep⟩
          exact ⟨k, Nat.lt_succ_of_lt hk, hstep⟩

end Process

end PathScript
