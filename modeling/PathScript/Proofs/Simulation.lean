import PathScript.Proofs.Termination

/-!
# Two Runs Side by Side

When two machines differ in something that should not matter, the runs of one
program on both should go the same way. The argument for that is the same
whatever the difference is: the two processes have the same tasks at every
step, because what a task leads to depends only on what the machines have in
common. `Simulation` lists what has to be known of a relation between machines
for the argument to go through, one condition for each thing a machine can do,
and the theorems here draw the conclusion for whole runs.

A difference may matter after all in circumstances that a theorem excludes,
such as a limit that one machine has reached and the other has not. Such
circumstances are a relation between the two runs, the *way out*. From the
point at which it is taken nothing more is claimed about the processes, which
may then go different ways; but it has to stay visible in what the runs keep,
their faults and their events, so that it can be excluded by looking at where
they end.

## Main definitions

* `Run.Related`: Two runs with the same fault on related machines.
* `Run.Agree`, `Process.Agree`: The way out is taken, or the two are related.
* `Simulation`: The conditions on a relation between machines.

## Theorems

* `Simulation.agree_perform`: Doing a task keeps processes in agreement.
* `Simulation.agree_step`, `Simulation.agree_after`: So does a step, and so do
  any number of steps.
* `Simulation.agree_runFrom`: The runs of one program on related machines agree.
-/

namespace PathScript

section

variable (R : Machine → Machine → Prop) (Escape : Run → Run → Prop)

/-- Two runs with the same fault, or none, on related machines. -/
def Run.Related (r r' : Run) : Prop := r.fault? = r'.fault? ∧ R r.machine r'.machine

/-- Two runs that have taken the way out or are related. -/
def Run.Agree (r r' : Run) : Prop := Escape r r' ∨ r.Related R r'

/-- Two processes that have taken the way out, or have the same tasks and
    related runs. -/
def Process.Agree (p p' : Process) : Prop :=
  Escape p.run p'.run ∨ (p.tasks = p'.tasks ∧ p.run.Related R p'.run)

/-- What has to be known of a relation between machines for the runs of one
    program on related machines to agree. -/
structure Simulation : Prop where
  /-- The way out stays visible. -/
  persists : ∀ {r r' s s' : Run}, Escape r r' → r.PartOf s → r'.PartOf s' → Escape s s'
  /-- Related machines have the same source. -/
  input_eq : ∀ {m m' : Machine}, R m m' → m.input = m'.input
  /-- They are still related when both read on in it. -/
  withInput : ∀ {m m' : Machine} (input : Option Tokenizer), R m m' →
    R { m with input := input } { m' with input := input }
  /-- Names are bound to the same values. -/
  lookup_eq : ∀ {m m' : Machine} (key : String), R m m' →
    (m.lookup? key).map (·.value) = (m'.lookup? key).map (·.value)
  push : ∀ {m m' : Machine} (command : String) (value : Value), R m m' →
    Run.Agree R Escape (.ofChange m command (m.push? m.settings value))
      (.ofChange m' command (m'.push? m'.settings value))
  pushCaptured : ∀ {m m' : Machine} (lexeme : String) (body : List String), R m m' →
    Run.Agree R Escape (m.pushCaptured lexeme body) (m'.pushCaptured lexeme body)
  openArray : ∀ {m m' : Machine}, R m m' → R m.openArray m'.openArray
  closeArray : ∀ {m m' : Machine}, R m m' → Run.Agree R Escape m.closeArray m'.closeArray
  /-- The way out may be that an operator is invoked at all. -/
  perform : ∀ {m m' : Machine} (p : Primitive), R m m' →
    Run.Agree R Escape ((m.perform p).after (.invoked (.primitive p)))
      ((m'.perform p).after (.invoked (.primitive p)))
  findFont : ∀ {m m' : Machine}, R m m' → Run.Agree R Escape m.findFont m'.findFont
  beginConditional : ∀ {m m' : Machine}, R m m' →
    Process.Agree R Escape m.beginConditional m'.beginConditional
  enter : ∀ {m m' : Machine} (name : String) (body : List String), R m m' →
    Process.Agree R Escape (m.enter name body) (m'.enter name body)
  leave : ∀ {m m' : Machine}, R m m' → R m.leave m'.leave

end

namespace Simulation

variable {R : Machine → Machine → Prop} {Escape : Run → Run → Prop}

theorem agree_finished {r r' : Run} (h : r.Agree R Escape r') :
    Process.Agree R Escape (.finished r) (.finished r') :=
  h.imp id fun hrelated => ⟨rfl, hrelated⟩

theorem agree_done {m m' : Machine} (h : R m m') : Run.Agree R Escape (.done m) (.done m') :=
  Or.inr ⟨rfl, h⟩

theorem agree_failed {m m' : Machine} (fault : Fault) (h : R m m') :
    Run.Agree R Escape (.failed m fault) (.failed m' fault) :=
  Or.inr ⟨rfl, h⟩

/-- Passing over font definitions looks at nothing but the source and the line
    that ends them. -/
theorem agree_skipFonts {m m' : Machine} (hinput : m.input = m'.input)
    (hmarker : m.settings.prologMarker = m'.settings.prologMarker)
    (hwithInput : ∀ input, R { m with input := input } { m' with input := input })
    (h : R m m') : Run.Agree R Escape m.skipFonts m'.skipFonts := by
  have htext : m.settings.markerText = m'.settings.markerText := by
    simp only [Settings.markerText, hmarker]
  unfold Machine.skipFonts
  rw [← hinput, ← hmarker]
  cases m.input with
  | none => exact agree_failed _ h
  | some t =>
      have hrest := hwithInput (some (t.skipTo m.settings.prologMarker).rest)
      -- What is reported names the marker and the line, which are the same on both.
      dsimp only [Machine.fault, Machine.line?]
      rw [← htext]
      cases (t.skipTo m.settings.prologMarker).found with
      | error e => exact agree_failed _ hrest
      | ok found =>
          cases found with
          | false => exact agree_failed _ hrest
          | true => exact Or.inr ⟨rfl, hrest⟩

variable (S : Simulation R Escape)
include S

/-- Complaints become the same faults on related machines. -/
theorem fault_eq {m m' : Machine} (h : R m m') (command : String) (c : Complaint) :
    m.fault command c = m'.fault command c := by
  simp only [Machine.fault, Machine.line?, S.input_eq h]

theorem agree_fault {m m' : Machine} (h : R m m') (command : String) (c : Complaint) :
    Run.Agree R Escape (.failed m (m.fault command c)) (.failed m' (m'.fault command c)) := by
  rw [S.fault_eq h]
  exact agree_failed _ h

theorem agree_noting {p p' : Process} (h : p.Agree R Escape p') (event : Event) :
    Process.Agree R Escape (p.noting event) (p'.noting event) := by
  rcases h with hescape | ⟨htasks, hrelated⟩
  · exact Or.inl (S.persists hescape (p.run.partOf_following [event])
      (p'.run.partOf_following [event]))
  · exact Or.inr ⟨htasks, hrelated⟩

theorem agree_stepPlain {m m' : Machine} (h : R m m') (lexeme : String) :
    Run.Agree R Escape (m.stepPlain lexeme) (m'.stepPlain lexeme) := by
  unfold Machine.stepPlain
  cases lexeme.toList with
  | nil => exact agree_failed _ h
  | cons first rest =>
      dsimp only
      split
      · exact S.push lexeme _ h
      · split
        · cases Machine.readNumber lexeme with
          | error c => exact S.agree_fault h lexeme c
          | ok x => exact S.push lexeme (.real x) h
        · split
          · exact agree_done (S.openArray h)
          · split
            · exact S.closeArray h
            · exact S.agree_fault h lexeme _

theorem agree_beginName {m m' : Machine} (h : R m m') (name : String) :
    Process.Agree R Escape (m.beginName name) (m'.beginName name) := by
  have hlookup := S.lookup_eq name h
  unfold Machine.beginName
  -- A name is bound on both machines or on neither, and to the same value.
  rcases hleft : m.lookup? name with _ | cell
  · rcases hright : m'.lookup? name with _ | cell'
    · exact agree_finished (S.agree_fault h name _)
    · rw [hleft, hright] at hlookup
      exact absurd hlookup (by simp only [Option.map_none, Option.map_some, reduceCtorEq,
        not_false_eq_true])
  · rcases hright : m'.lookup? name with _ | cell'
    · rw [hleft, hright] at hlookup
      exact absurd hlookup (by simp only [Option.map_none, Option.map_some, reduceCtorEq,
        not_false_eq_true])
    · rw [hleft, hright] at hlookup
      simp only [Option.map_some, Option.some.injEq] at hlookup
      simp only [hlookup]
      exact Or.inr ⟨rfl, rfl, h⟩

theorem agree_beginLexeme {m m' : Machine} (h : R m m') (lexeme : String) :
    Process.Agree R Escape (m.beginLexeme lexeme) (m'.beginLexeme lexeme) := by
  unfold Machine.beginLexeme
  split
  · exact S.agree_beginName h lexeme
  · exact agree_finished (S.agree_stepPlain h lexeme)

theorem agree_beginValue {m m' : Machine} (h : R m m') (name : String) (value : Value) :
    Process.Agree R Escape (m.beginValue name value) (m'.beginValue name value) := by
  cases value with
  | operator op =>
      cases op with
      | primitive p => exact agree_finished (S.perform p h)
      | findfont => exact S.agree_noting (agree_finished (S.findFont h)) _
      | conditional => exact S.agree_noting (S.beginConditional h) _
  | procedure identity body => exact S.enter name body h
  | literal identity inner => exact agree_finished (S.push name inner h)
  | real x => exact agree_finished (S.agree_fault h name _)
  | name text => exact agree_finished (S.agree_fault h name _)
  | bool b => exact agree_finished (S.agree_fault h name _)
  | array identity items => exact agree_finished (S.agree_fault h name _)

theorem agree_captureInput {m m' : Machine} (h : R m m') (lexeme : String) :
    Run.Agree R Escape (m.captureInput lexeme) (m'.captureInput lexeme) := by
  unfold Machine.captureInput
  rw [← S.input_eq h]
  cases m.input with
  | none => exact agree_failed _ h
  | some t =>
      have hrest := S.withInput (some (t.capture 0).2) h
      dsimp only
      cases (t.capture 0).1 with
      | error e =>
          cases e with
          | unclosed depth => exact S.agree_fault hrest openBrace _
          | decoding e => exact agree_failed _ hrest
      | ok body => exact S.pushCaptured lexeme body hrest

/-- A procedure is captured from the same lexemes and leaves the same ones. -/
theorem agree_capture {m m' : Machine} (h : R m m') (lexeme : String) (supply : Supply) :
    (supply.capture m lexeme).1 = (supply.capture m' lexeme).1 ∧
      Run.Agree R Escape (supply.capture m lexeme).2 (supply.capture m' lexeme).2 := by
  cases supply with
  | list lexemes =>
      unfold Supply.capture
      dsimp only
      cases capture 0 lexemes with
      | error depth => exact ⟨rfl, S.agree_fault h openBrace _⟩
      | ok found => exact ⟨rfl, S.pushCaptured lexeme found.1 h⟩
  | input => exact ⟨rfl, S.agree_captureInput h lexeme⟩

/-- A lexeme and what comes after it: both machines do the same with it. -/
theorem agree_lexeme {m m' : Machine} (h : R m m') (lexeme : String) (left : Supply) :
    Process.Agree R Escape
      (if Machine.beginsProcedure lexeme then
        ⟨[.run (left.capture m lexeme).1], (left.capture m lexeme).2⟩
      else ⟨(m.beginLexeme lexeme).tasks ++ [.run left], (m.beginLexeme lexeme).run⟩)
      (if Machine.beginsProcedure lexeme then
        ⟨[.run (left.capture m' lexeme).1], (left.capture m' lexeme).2⟩
      else ⟨(m'.beginLexeme lexeme).tasks ++ [.run left], (m'.beginLexeme lexeme).run⟩) := by
  split
  · rcases S.agree_capture h lexeme left with ⟨hleft, hrun⟩
    rw [hleft]
    exact hrun.imp id fun hrelated => ⟨rfl, hrelated⟩
  · rcases S.agree_beginLexeme h lexeme with hescape | ⟨htasks, hrelated⟩
    · exact Or.inl hescape
    · exact Or.inr ⟨by rw [htasks], hrelated⟩

/-- Doing a task keeps processes in agreement. -/
theorem agree_perform {m m' : Machine} (h : R m m') (task : Task) :
    Process.Agree R Escape (task.perform m) (task.perform m') := by
  cases task with
  | run supply =>
      cases supply with
      | list lexemes =>
          cases lexemes with
          | nil => exact agree_finished (agree_done h)
          | cons lexeme rest => exact S.agree_lexeme h lexeme (.list rest)
      | input =>
          unfold Task.perform Supply.take Machine.nextLexeme
          rw [← S.input_eq h]
          cases m.input with
          | none => exact agree_finished (agree_failed _ h)
          | some t =>
              have hrest := S.withInput (some t.next.2) h
              dsimp only
              cases t.next.1 with
              | error e => exact agree_finished (agree_failed _ hrest)
              | ok found =>
                  cases found with
                  | none => exact agree_finished (agree_done hrest)
                  | some lexeme => exact S.agree_lexeme hrest lexeme .input
  | execute value name => exact S.agree_beginValue h name value
  | leave => exact agree_finished (agree_done (S.leave h))

/-- So does a step. -/
theorem agree_step {p p' : Process} (h : p.Agree R Escape p') : p.step.Agree R Escape p'.step := by
  rcases h with hescape | ⟨htasks, hfault, hmachine⟩
  · exact Or.inl (S.persists hescape p.partOf_step p'.partOf_step)
  · rcases p with ⟨tasks, r⟩
    rcases p' with ⟨tasks', r'⟩
    dsimp only at htasks hfault hmachine
    rw [← htasks]
    cases tasks with
    | nil => exact Or.inr ⟨rfl, hfault, hmachine⟩
    | cons task tasks =>
        -- Related runs have the same fault, so both do the task or both drop it.
        rcases Option.eq_none_or_eq_some r.fault? with hnone | ⟨f, hsome⟩
        · rw [Process.step_of_none hnone, Process.step_of_none (hfault.symm.trans hnone)]
          rcases S.agree_perform hmachine task with hescape | ⟨hbegun, hrelated⟩
          · exact Or.inl (S.persists hescape (Run.partOf_following _ _) (Run.partOf_following _ _))
          · exact Or.inr ⟨by rw [hbegun], hrelated⟩
        · rw [Process.step_of_fault hsome, Process.step_of_fault (hfault.symm.trans hsome)]
          refine Or.inr ⟨rfl, hfault, ?_⟩
          cases task with
          | run supply => exact hmachine
          | execute value name => exact hmachine
          | leave => exact S.leave hmachine

/-- So do any number of steps. -/
theorem agree_after {p p' : Process} (h : p.Agree R Escape p') (n : Nat) :
    (p.after n).Agree R Escape (p'.after n) := by
  induction n with
  | zero => exact h
  | succ n ih =>
      rw [Process.after_succ, Process.after_succ]
      exact S.agree_step ih

/-- The runs of one program on related machines agree. -/
theorem agree_runFrom {m m' : Machine} (h : R m m') (supply : Supply) :
    (m.runFrom supply).Agree R Escape (m'.runFrom supply) := by
  rcases Process.reaches_runFrom m supply with ⟨n, hn⟩
  rcases Process.reaches_runFrom m' supply with ⟨n', hn'⟩
  -- Both processes have ended after as many steps as the two take together.
  have hleft : (Process.start m supply).after (n + n') = .finished (m.runFrom supply) := by
    rw [Process.after_add, hn, Process.after_finished]
  have hright : (Process.start m' supply).after (n + n') = .finished (m'.runFrom supply) := by
    rw [Nat.add_comm, Process.after_add, hn', Process.after_finished]
  have hstart : (Process.start m supply).Agree R Escape (Process.start m' supply) :=
    Or.inr ⟨rfl, rfl, h⟩
  have hend := S.agree_after hstart (n + n')
  rw [hleft, hright] at hend
  exact hend.imp id fun hrelated => hrelated.2

end Simulation

end PathScript
