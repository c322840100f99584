import PathScript.Proofs.Level
import PathScript.Proofs.Process

/-!
# Termination

Every process comes to an end, and it ends where the run it stands for does.

Procedures can redefine the names they invoke, invoke themselves and each
other, directly or through a conditional, and pass over lines of the source
from inside a body. None of this shows in the text of a program, so the
argument cannot be by induction on the text. It is by induction on the levels
of procedures that may still be entered, and for one level by induction on the
lexemes of the body: a procedure that is invoked runs one level further in,
and its body is finite. At the outermost level the lexemes may come from the
source, which gets smaller with each of them, and smaller still if a procedure
passes over some of it. A conditional that executes a conditional stays on its
level and in its place, but has taken operands off the stack.

`Yields` is what the induction carries. It says where a process leads
whatever tasks come after it and whatever events came before it, so that the
parts of a run can be put together: a body is run with the lexemes after the
call still waiting, and with the task of leaving the procedure in between.

A caller is faithful at a level if it leads where executing a procedure step by
step leads. Each definition of the interpreter takes a caller, and for each
there is a theorem that it does what the process does if its caller is
faithful. That `callerAt` is faithful closes the circle.

## Main definitions

* `Process.Yields`: Where a process leads in any surroundings.
* `Caller.Faithful`: A caller that leads where procedures lead step by step.
* `Machine.runFrom`: Running the lexemes of a supply.
* `Process.start`: The process that is to run the lexemes of a supply.

## Theorems

* `Process.yields_append`: Tasks done one after the other.
* `Machine.yields_invoke`, `Machine.yields_execute`: Executing values.
* `Machine.yields_runLexemes`: Running a list of lexemes.
* `callerAt_faithful`: Invoking procedures.
* `Machine.yields_runInput`: Running the source.
* `Process.reaches_runFrom`: A process ends where its run does.
* `Process.runFrom_eq_of_tasks_nil`: Evaluating a run by steps.
* `Process.exists_reaches_finished`: Every process comes to an end.
* `interpretation_terminates`: Both, for lexemes and for values.
-/

namespace PathScript

/-- Results are compared as options where something is evaluated, since those can be. -/
theorem eq_ok_of_toOption {ε α : Type} {r : Except ε α} {x : α} (h : r.toOption = some x) :
    r = .ok x := by
  cases r with
  | error e => cases h
  | ok y => rw [Option.some.inj h]

namespace Process

/-- Where a process leads, whatever tasks come after it and whatever events came
    before it. -/
def Yields (p : Process) (r : Run) : Prop :=
  ∀ (tasks : List Task) (events : List Event),
    Reaches ⟨p.tasks ++ tasks, p.run.following events⟩ ⟨tasks, r.following events⟩

theorem yields_finished (r : Run) : (finished r).Yields r := fun _ _ => reaches_refl _

/-- A step is the same in any surroundings as long as there is a task to do. -/
theorem step_surrounded (p : Process) (tasks : List Task) (events : List Event)
    (h : p.tasks ≠ []) :
    step ⟨p.tasks ++ tasks, p.run.following events⟩
      = ⟨p.step.tasks ++ tasks, p.step.run.following events⟩ := by
  rcases p with ⟨ptasks, r⟩
  cases ptasks with
  | nil => exact absurd rfl h
  | cons task rest =>
      cases hfault : r.fault? with
      | some f => simp only [step, List.cons_append, Run.following, hfault]
      | none =>
          simp only [step, List.cons_append, Run.following, hfault, List.append_assoc]

/-- Where a process leads after a step it leads from the start. -/
theorem yields_of_step {p : Process} {r : Run} (h : p.step.Yields r) : p.Yields r := by
  by_cases hp : p.tasks = []
  · -- With nothing to do a step changes nothing.
    have hstep : p.step = p := by
      rcases p with ⟨tasks, run⟩
      simp only at hp
      rw [hp]
      rfl
    rwa [hstep] at h
  · intro tasks events
    have hone := reaches_step ⟨p.tasks ++ tasks, p.run.following events⟩
    rw [step_surrounded p tasks events hp] at hone
    exact reaches_trans hone (h tasks events)

/-- Tasks done one after the other. -/
theorem yields_append {first second : List Task} {r s t : Run} (hfirst : Yields ⟨first, r⟩ s)
    (hsecond : Yields ⟨second, s⟩ t) : Yields ⟨first ++ second, r⟩ t := by
  intro tasks events
  rw [List.append_assoc]
  exact reaches_trans (hfirst (second ++ tasks) events) (hsecond tasks events)

/-- What came before a process comes before where it leads. -/
theorem yields_following {tasks : List Task} {r s : Run} (h : Yields ⟨tasks, r⟩ s)
    (earlier : List Event) : Yields ⟨tasks, r.following earlier⟩ (s.following earlier) := by
  intro others events
  have hsurrounded := h others (events ++ earlier)
  rwa [← Run.following_following, ← Run.following_following] at hsurrounded

theorem yields_after {tasks : List Task} {r s : Run} (h : Yields ⟨tasks, r⟩ s)
    (event : Event) : Yields ⟨tasks, r.after event⟩ (s.after event) :=
  yields_following h [event]

/-- Lexemes are not run after a fault. -/
theorem yields_run_of_fault {r : Run} {f : Fault} (h : r.fault? = some f) (supply : Supply) :
    Yields ⟨[.run supply], r⟩ r := by
  refine yields_of_step ?_
  rw [step_of_fault h]
  exact yields_finished r

/-- A procedure is left whether or not there has been a fault. -/
theorem yields_leave (r : Run) : Yields ⟨[.leave], r⟩ { r with machine := r.machine.leave } := by
  refine yields_of_step ?_
  rcases Option.eq_none_or_eq_some r.fault? with hfault | ⟨f, hfault⟩
  · have hstep : step ⟨[.leave], r⟩ = finished { r with machine := r.machine.leave } := by
      rw [step_of_none hfault]
      simp only [Task.perform, finished, List.append_nil, Run.done, Run.following, hfault]
    rw [hstep]
    exact yields_finished _
  · rw [step_of_fault hfault]
    exact yields_finished _

/-- What is to be done on a run without a fault is done on its machine, after its
    events. -/
theorem yields_of_none {tasks : List Task} {r s : Run} (hfault : r.fault? = none)
    (h : Yields ⟨tasks, .done r.machine⟩ s) : Yields ⟨tasks, r⟩ (s.following r.events) := by
  have hrun : r = (Run.done r.machine).following r.events := by
    rcases r with ⟨m, fault?, events⟩
    simp only at hfault
    simp only [hfault, Run.done, Run.following, List.append_nil]
  have hrest := yields_following h r.events
  rwa [← hrun] at hrest

/-- Running lexemes goes on from a run unless there has been a fault. -/
theorem yields_andThen {r : Run} {supply : Supply} {next : Machine → Run}
    (h : r.fault? = none → Yields ⟨[.run supply], .done r.machine⟩ (next r.machine)) :
    Yields ⟨[.run supply], r⟩ (r.andThen next) := by
  unfold Run.andThen
  cases hfault : r.fault? with
  | some f => exact yields_run_of_fault hfault supply
  | none => exact yields_of_none hfault (h hfault)

/-- A task leads where what doing it comes to leads. -/
theorem yields_of_perform {m : Machine} {task : Task} {r : Run}
    (h : (task.perform m).Yields r) : Yields ⟨[task], .done m⟩ r := by
  refine yields_of_step ?_
  rw [step_of_none rfl, List.append_nil]
  exact h

end Process

open Process

/-- A caller that leads where executing procedures step by step leads, on
    machines that may enter a given number of further levels. -/
def Caller.Faithful (call : Caller) (level : Nat) : Prop :=
  ∀ (identity : Identity) (name : String) (body : List String) (m : Machine),
    m.allowance = level →
      Yields ⟨[.execute (.procedure identity body) name], .done m⟩ (call name body m)

namespace Machine

theorem yields_executeValue (call : Caller) (level : Nat) (hcall : call.Faithful level)
    (value : Value) (name : String) (m : Machine) (hm : m.allowance = level)
    (hvalue : ∀ op, value ≠ .operator op) :
    Yields ⟨[.execute value name], .done m⟩ (m.executeValue call value name) := by
  unfold executeValue
  split
  · next identity body => exact hcall identity name body m hm
  · exact yields_of_perform (yields_finished _)
  · next hprocedure hliteral =>
      -- What is left over is refused, whichever kind of value it is.
      refine yields_of_perform ?_
      cases value with
      | operator op => exact absurd rfl (hvalue op)
      | procedure identity body => exact absurd rfl (hprocedure identity body)
      | literal identity inner => exact absurd rfl (hliteral identity inner)
      | real x => exact yields_finished _
      | name text => exact yields_finished _
      | bool b => exact yields_finished _
      | array identity items => exact yields_finished _

/-- Invoking an operator. The induction is that of the definition: a conditional
    that is to execute an operator takes its operands off the stack first. -/
theorem yields_invoke (call : Caller) (level : Nat) (hcall : call.Faithful level)
    (op : Operator) (m : Machine) (hm : m.allowance = level) (name : String) :
    Yields ⟨[.execute (.operator op) name], .done m⟩ ((m.invoke call op).after (.invoked op)) := by
  refine yields_of_perform (yields_after ?_ _)
  change (m.beginOperator op).Yields (m.invoke call op)
  fun_induction invoke call op m with
  | case1 m p => exact yields_finished _
  | case2 m => exact yields_finished _
  | case3 m command c s h =>
      rcases State.takeCondition_of_run_error h with ⟨hcondition, rfl⟩
      simp only [beginOperator, beginConditional, hcondition]
      exact yields_finished _
  | case4 m s h =>
      simp only [beginOperator, beginConditional, State.takeCondition_of_run_ok h]
      exact yields_finished _
  | case5 m op s h ih =>
      -- The operator is begun by a task of its own and noted there.
      simp only [beginOperator, beginConditional, State.takeCondition_of_run_ok h]
      exact yields_of_perform (yields_after (ih hm) _)
  | case6 m command value s hop h =>
      simp only [beginOperator, beginConditional, State.takeCondition_of_run_ok h]
      exact yields_executeValue call level hcall value command { m with toState := s } hm hop

theorem yields_execute (call : Caller) (level : Nat) (hcall : call.Faithful level)
    (value : Value) (name : String) (m : Machine) (hm : m.allowance = level) :
    Yields ⟨[.execute value name], .done m⟩ (m.execute call value name) := by
  unfold execute
  split
  · next op => exact yields_invoke call level hcall op m hm name
  · next hvalue => exact yields_executeValue call level hcall value name m hm hvalue

theorem yields_step (call : Caller) (level : Nat) (hcall : call.Faithful level)
    (lexeme : String) (m : Machine) (hm : m.allowance = level) :
    (m.beginLexeme lexeme).Yields (m.step call lexeme) := by
  rw [step_eq_ite]
  unfold beginLexeme
  split
  · unfold beginName executeName
    cases m.lookup? lexeme with
    | some cell => exact yields_execute call level hcall cell.value lexeme m hm
    | none => exact yields_finished _
  · exact yields_finished _

/-- Running a list of lexemes. The level stays what it is from one lexeme to the
    next, so that one caller serves for all of them. -/
theorem yields_runLexemes (call : Caller) (level : Nat) (hlevel : call.Level)
    (hcall : call.Faithful level) (lexemes : List String) (m : Machine)
    (hm : m.allowance = level) :
    Yields ⟨[.run (.list lexemes)], .done m⟩ (m.runLexemes call lexemes) := by
  fun_induction runLexemes call lexemes m with
  | case1 m => exact yields_of_perform (yields_finished _)
  | case2 m lexeme rest hbegins depth h =>
      refine yields_of_perform ?_
      simp only [Task.perform, Supply.take, hbegins, if_true, Supply.capture, h]
      exact yields_run_of_fault rfl _
  | case3 m lexeme rest hbegins body left h ih =>
      refine yields_of_perform ?_
      simp only [Task.perform, Supply.take, hbegins, if_true, Supply.capture, h]
      refine yields_andThen fun _ => ih _ ?_
      rw [(sameLevel_pushCaptured m lexeme body).allowance_eq, hm]
  | case4 m lexeme rest hbegins ih =>
      refine yields_of_perform ?_
      simp only [Task.perform, Supply.take, hbegins]
      -- What the lexeme leaves to do is done before the rest is run.
      refine yields_append (yields_step call level hcall lexeme m hm) ?_
      refine yields_andThen fun _ => ih _ ?_
      rw [(sameLevel_step call hlevel lexeme m).allowance_eq, hm]

end Machine

/-- Invoking procedures at a level leads where executing them step by step leads.
    With no level left the limit on nesting is reached. Otherwise the body runs
    with one level less, and leaving the procedure afterwards puts back the depth
    that it was entered from. -/
theorem callerAt_faithful (level : Nat) : (callerAt level).Faithful level := by
  induction level with
  | zero =>
      intro identity name body m hm
      -- There is no level left exactly if the limit is reached.
      have hlimit : ¬ (m.depth : Int) < m.settings.maxDepth := by
        unfold Machine.allowance at hm
        omega
      refine yields_of_perform ?_
      simp only [Task.perform, Machine.beginValue, Machine.enter, if_neg hlimit]
      exact yields_finished _
  | succ level ih =>
      intro identity name body m hm
      have hlimit : (m.depth : Int) < m.settings.maxDepth := by
        unfold Machine.allowance at hm
        omega
      have hinner : ({ m with depth := m.depth + 1 } : Machine).allowance = level := by
        unfold Machine.allowance at hm ⊢
        simp only
        omega
      have hbody := Machine.yields_runLexemes (callerAt level) level (callerAt_level level) ih body
        { m with depth := m.depth + 1 } hinner
      have hdepth := (Machine.sameLevel_runLexemes (callerAt level) (callerAt_level level) body
        { m with depth := m.depth + 1 }).depth_eq
      refine yields_of_perform ?_
      simp only [Task.perform, Machine.beginValue, Machine.enter, if_pos hlimit]
      change Yields ⟨[.run (.list body)] ++ [.leave], _⟩ _
      refine yields_after (yields_append hbody ?_) _
      -- The body comes back to its level, so leaving it arrives at the one before.
      have hleave : ∀ r : Run, r.machine.depth = m.depth + 1 →
          { r with machine := r.machine.leave }
            = ({ r with machine := { r.machine with depth := m.depth } } : Run) := by
        intro r hr
        simp only [Machine.leave, hr, Nat.add_sub_cancel]
      rw [← hleave _ hdepth]
      exact yields_leave _

namespace Machine

/-- What asking the source for a lexeme and acting on it comes to, in terms of
    what the supply delivers. -/
theorem take_input (m : Machine) :
    match m.advance with
    | .ended rest => Supply.take m .input = .ended rest
    | .unreadable rest fault => Supply.take m .input = .unreadable rest fault
    | .accepted lexeme run => ∃ rest, Supply.take m .input = .lexeme lexeme .input rest ∧
        run = rest.accept (callerAt rest.allowance) lexeme := by
  unfold advance Supply.take
  rcases m.nextLexeme with ⟨found, rest⟩
  cases found with
  | error fault => rfl
  | ok found =>
      cases found with
      | none => rfl
      | some lexeme => exact ⟨rest, rfl, rfl⟩

/-- A lexeme from the source is acted on, and the rest of the source is left to
    run. -/
theorem yields_of_take_input {m rest : Machine} {lexeme : String} {r : Run}
    (htake : Supply.take m .input = .lexeme lexeme .input rest)
    (h : Yields ⟨[.run .input], rest.accept (callerAt rest.allowance) lexeme⟩ r) :
    Yields ⟨[.run .input], .done m⟩ r := by
  refine yields_of_perform ?_
  unfold accept at h
  simp only [Task.perform, htake]
  by_cases hbegins : beginsProcedure lexeme
  · rw [if_pos hbegins] at h ⊢
    exact h
  · rw [if_neg hbegins] at h ⊢
    exact yields_append
      (yields_step _ rest.allowance (callerAt_faithful rest.allowance) lexeme rest rfl) h

/-- Running the source to its end. -/
theorem yields_runInput (m : Machine) : Yields ⟨[.run .input], .done m⟩ m.runInput := by
  fun_induction runInput m with
  | case1 m rest h =>
      have htake := take_input m
      rw [h] at htake
      refine yields_of_perform ?_
      simp only [Task.perform, htake]
      exact yields_finished _
  | case2 m rest fault h =>
      have htake := take_input m
      rw [h] at htake
      refine yields_of_perform ?_
      simp only [Task.perform, htake]
      exact yields_finished _
  | case3 m lexeme run h fault hfault =>
      have htake := take_input m
      rw [h] at htake
      rcases htake with ⟨rest, htake, hrun⟩
      refine yields_of_take_input htake ?_
      rw [← hrun]
      exact yields_run_of_fault hfault _
  | case4 m lexeme run h hfault ih =>
      have htake := take_input m
      rw [h] at htake
      rcases htake with ⟨rest, htake, hrun⟩
      refine yields_of_take_input htake ?_
      rw [← hrun]
      -- There was no fault, so the rest of the source is run on the machine as it is now.
      have hgoesOn := yields_andThen (fun _ => ih)
      simp only [Run.andThen, hfault] at hgoesOn
      exact hgoesOn

/-- Runs the lexemes of a supply. -/
def runFrom (m : Machine) : Supply → Run
  | .list lexemes => m.runList lexemes
  | .input => m.runInput

theorem yields_runFrom (m : Machine) (supply : Supply) :
    Yields ⟨[.run supply], .done m⟩ (m.runFrom supply) := by
  cases supply with
  | list lexemes =>
      exact yields_runLexemes _ m.allowance (callerAt_level _) (callerAt_faithful _) lexemes m rfl
  | input => exact yields_runInput m

end Machine

namespace Process

/-- The process that is to run the lexemes of a supply. -/
def start (m : Machine) (supply : Supply) : Process := ⟨[.run supply], .done m⟩

theorem reaches_of_yields {p : Process} {r : Run} (h : p.Yields r) : p.Reaches (finished r) := by
  have hend := h [] []
  rw [List.append_nil] at hend
  exact hend

/-- A process ends where its run does. -/
theorem reaches_runFrom (m : Machine) (supply : Supply) :
    (start m supply).Reaches (finished (m.runFrom supply)) :=
  reaches_of_yields (m.yields_runFrom supply)

/-- Once there are no tasks left, the run so far is the whole run. This is how a
    run is evaluated, since a step computes where the recursion on levels does
    not. -/
theorem runFrom_eq_of_tasks_nil {m : Machine} {supply : Supply} {n : Nat}
    (h : ((start m supply).after n).tasks = []) :
    m.runFrom supply = ((start m supply).after n).run := by
  refine eq_of_reaches_finished (reaches_runFrom m supply) ⟨n, ?_⟩
  rcases hprocess : (start m supply).after n with ⟨tasks, r⟩
  rw [hprocess] at h
  simp only at h
  rw [h]
  rfl

/-- Every task comes to an end. -/
theorem exists_yields_task (task : Task) (r : Run) : ∃ s, Yields ⟨[task], r⟩ s := by
  rcases Option.eq_none_or_eq_some r.fault? with hfault | ⟨f, hfault⟩
  · cases task with
    | run supply => exact ⟨_, yields_of_none hfault (r.machine.yields_runFrom supply)⟩
    | execute value name =>
        exact ⟨_, yields_of_none hfault
          (Machine.yields_execute _ _ (callerAt_faithful _) value name r.machine rfl)⟩
    | leave => exact ⟨_, yields_leave r⟩
  · refine ⟨{ r with machine := task.abandon r.machine }, yields_of_step ?_⟩
    rw [step_of_fault hfault]
    exact yields_finished _

/-- Every process comes to an end. -/
theorem exists_reaches_finished (p : Process) : ∃ r, p.Reaches (finished r) := by
  rcases p with ⟨tasks, r⟩
  suffices h : ∃ s, Yields ⟨tasks, r⟩ s by
    rcases h with ⟨s, hs⟩
    exact ⟨s, reaches_of_yields hs⟩
  -- Each task ends in any surroundings, so that the others are still there afterwards.
  induction tasks generalizing r with
  | nil => exact ⟨r, yields_finished r⟩
  | cons task tasks ih =>
      rcases exists_yields_task task r with ⟨s, hs⟩
      rcases ih s with ⟨t, ht⟩
      exact ⟨t, yields_append hs ht⟩

end Process

/-- Every interpretation terminates. Whatever the machine, its settings and its
    definitions, the process that runs the lexemes of a list or of the source ends
    after some number of steps, and so does the one that executes a value. Each
    ends in what the definition by levels says, a completed run or a fault. And no
    process at all goes on for ever, whatever its tasks. -/
theorem interpretation_terminates :
    (∀ (m : Machine) (supply : Supply),
      ∃ n, (Process.start m supply).after n = .finished (m.runFrom supply)) ∧
    (∀ (m : Machine) (value : Value) (name : String),
      ∃ n, Process.after n ⟨[.execute value name], .done m⟩
        = .finished (m.execute (callerAt m.allowance) value name)) ∧
    (∀ p : Process, ∃ n, (p.after n).tasks = []) := by
  refine ⟨Process.reaches_runFrom, fun m value name => ?_, fun p => ?_⟩
  · exact Process.reaches_of_yields
      (Machine.yields_execute _ _ (callerAt_faithful _) value name m rfl)
  · rcases Process.exists_reaches_finished p with ⟨r, n, hn⟩
    exact ⟨n, by rw [hn]; rfl⟩

end PathScript
