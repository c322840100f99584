import PathScript.Proofs.Process

/-!
# Invariants

What holds of every state that a program passes through, inside procedures as
well as outside and after a fault as well as before.

A property of machines is seldom preserved for its own sake. Values come from
the operand stack and the definitions, wait among the tasks to be executed,
and end up on the stack again; bodies come from captured lexemes and wait to be
run. So an invariant has three parts: what holds of the machine, what holds of
every value that may be executed or pushed, and what holds of every list of
lexemes that may be run. `Invariant` lists what has to be known of the three,
one condition for each thing a machine can do, and the theorems here carry it
through every step of every process.

Some invariants depend on what is known of a run from elsewhere. The *guard* of
an invariant is what may be taken for granted of a machine when it performs an
operator. A step keeps to the invariant if the guard is met there, so that a
guard which excludes operators leaves the steps that perform none.

## Main definitions

* `Invariant`: The conditions on the three parts of an invariant.
* `Task.Sound`, `Process.Sound`: Tasks and processes that satisfy one.

## Theorems

* `Invariant.sound_perform`: Doing a task keeps to an invariant.
* `Invariant.sound_step`, `Invariant.sound_after`: So does a step, and so do any
  number of steps.
-/

namespace PathScript

section

variable (G : Primitive → Machine → Prop) (I : Machine → Prop) (V : Value → Prop)
  (L : List String → Prop)

/-- What has to be known for a property of machines, one of values and one of
    lists of lexemes to hold all along, under a guard. -/
structure Invariant : Prop where
  /-- Literal names. -/
  name : ∀ text, V (.name text)
  /-- Numbers that can be written. -/
  real : ∀ x : Binary64, x.isFinite = true → V (.real x)
  /-- What a literal procedure pushes. -/
  literal : ∀ {identity : Identity} {inner : Value}, V (.literal identity inner) → V inner
  /-- The lexemes a procedure runs. -/
  procedure : ∀ {identity : Identity} {body : List String}, V (.procedure identity body) → L body
  /-- What a name is bound to. -/
  lookup : ∀ {m : Machine} {key : String} {cell : Cell}, I m → m.lookup? key = some cell →
    V cell.value
  /-- No lexemes. -/
  nil : L []
  /-- The lexemes after one that does not begin a procedure. -/
  tail : ∀ {lexeme : String} {rest : List String}, L (lexeme :: rest) →
    Machine.beginsProcedure lexeme = false → L rest
  /-- A procedure captured from a list, and the lexemes after it. -/
  capture : ∀ {lexeme : String} {rest body left : List String}, L (lexeme :: rest) →
    Machine.beginsProcedure lexeme = true → PathScript.capture 0 rest = .ok (body, left) →
      (∀ identity, V (.procedure identity body)) ∧ L left
  /-- A procedure captured from the source. -/
  captureInput : ∀ {m : Machine} {t : Tokenizer} {body : List String}, I m → m.input = some t →
    (t.capture 0).1 = .ok body → ∀ identity, V (.procedure identity body)
  /-- Reading one lexeme. -/
  next : ∀ {m : Machine} {t : Tokenizer}, I m → m.input = some t →
    I { m with input := some t.next.2 }
  /-- Reading a body. -/
  readBody : ∀ {m : Machine} {t : Tokenizer}, I m → m.input = some t →
    I { m with input := some (t.capture 0).2 }
  /-- Passing over font definitions. -/
  skip : ∀ {m : Machine} {t : Tokenizer}, I m → m.input = some t →
    I { m with input := some (t.skipTo m.settings.prologMarker).rest }
  push : ∀ {m : Machine} {value : Value} {s : State}, I m → V value →
    m.push? m.settings value = .ok s → I { m with toState := s }
  pushProcedure : ∀ {m : Machine} {body : List String} {s : State}, I m →
    (∀ identity, V (.procedure identity body)) → m.pushProcedure? m.settings body = .ok s →
      I { m with toState := s }
  openArray : ∀ {m : Machine}, I m → I m.openArray
  closeArray : ∀ {m : Machine}, I m → I m.closeArray.machine
  perform : ∀ {m : Machine} {p : Primitive} {s : State}, I m → G p m →
    p.perform m.settings m.toState = .ok s → I { m with toState := s }
  /-- Taking the name of a font off the stack. -/
  dropOperand : ∀ {m : Machine} {cell : Cell} {rest : List Cell}, I m →
    m.operands = cell :: rest → I { m with operands := rest }
  /-- Taking the operands of a conditional off the stack, one of them to be
      executed. -/
  condition : ∀ {m : Machine} {target : Option Value} {s : State}, I m →
    m.takeCondition = .ok (target, s) → I { m with toState := s } ∧ ∀ v ∈ target, V v
  enter : ∀ {m : Machine}, I m → (m.depth : Int) < m.settings.maxDepth →
    I { m with depth := m.depth + 1 }
  leave : ∀ {m : Machine}, I m → I m.leave

/-- A task that works on sound values and lexemes. -/
def Task.Sound : Task → Prop
  | .run (.list lexemes) => L lexemes
  | .run .input => True
  | .execute value _ => V value
  | .leave => True

/-- A process on a sound machine all of whose tasks are sound. -/
structure Process.Sound (p : Process) : Prop where
  machine : I p.run.machine
  tasks : ∀ task ∈ p.tasks, task.Sound V L

end

/-- A task is sound if nothing has to be known of values and lexemes. -/
theorem Task.sound_of_true (task : Task) : task.Sound (fun _ => True) (fun _ => True) := by
  cases task with
  | run supply => cases supply <;> trivial
  | execute value name => trivial
  | leave => trivial

namespace Invariant

variable {G : Primitive → Machine → Prop} {I : Machine → Prop} {V : Value → Prop}
  {L : List String → Prop}

theorem sound_finished {r : Run} (h : I r.machine) : (Process.finished r).Sound I V L :=
  ⟨h, fun _ hmem => absurd hmem List.not_mem_nil⟩

/-- A process with a sound task after it. -/
theorem sound_append {p : Process} (h : p.Sound I V L) {task : Task} (htask : task.Sound V L) :
    Process.Sound I V L ⟨p.tasks ++ [task], p.run⟩ := by
  refine ⟨h.machine, fun other hmem => ?_⟩
  rcases List.mem_append.mp hmem with hbefore | hlast
  · exact h.tasks other hbefore
  · rw [List.mem_singleton.mp hlast]
    exact htask

theorem sound_singleton {r : Run} (h : I r.machine) {task : Task} (htask : task.Sound V L) :
    Process.Sound I V L ⟨[task], r⟩ :=
  sound_append (sound_finished h) htask

variable (inv : Invariant G I V L)
include inv

theorem machine_ofChange_push {m : Machine} (h : I m) (command : String) {value : Value}
    (hvalue : V value) : I (Run.ofChange m command (m.push? m.settings value)).machine := by
  cases hpush : m.push? m.settings value with
  | ok s => exact inv.push h hvalue hpush
  | error c => exact h

theorem machine_pushCaptured {m : Machine} (h : I m) (lexeme : String) {body : List String}
    (hbody : ∀ identity, V (.procedure identity body)) : I (m.pushCaptured lexeme body).machine := by
  unfold Machine.pushCaptured
  cases hpush : m.pushProcedure? m.settings body with
  | ok s => exact inv.pushProcedure h hbody hpush
  | error c => exact h

theorem machine_stepPlain {m : Machine} (h : I m) (lexeme : String) :
    I (m.stepPlain lexeme).machine := by
  unfold Machine.stepPlain
  cases lexeme.toList with
  | nil => exact h
  | cons first rest =>
      dsimp only
      split
      · exact inv.machine_ofChange_push h lexeme (inv.name _)
      · split
        · rcases hnumber : Machine.readNumber lexeme with c | x
          · exact h
          · -- Only finite numbers can be read.
            have hfinite : x.isFinite = true := by
              unfold Machine.readNumber at hnumber
              split at hnumber
              · exact absurd hnumber (by simp only [reduceCtorEq, not_false_eq_true])
              · split at hnumber
                · next y _ hy =>
                    simp only [Except.ok.injEq] at hnumber
                    rw [← hnumber]
                    exact hy
                · exact absurd hnumber (by simp only [reduceCtorEq, not_false_eq_true])
            exact inv.machine_ofChange_push h lexeme (inv.real x hfinite)
        · split
          · exact inv.openArray h
          · split
            · exact inv.closeArray h
            · exact h

theorem sound_beginLexeme {m : Machine} (h : I m) (lexeme : String) :
    (m.beginLexeme lexeme).Sound I V L := by
  unfold Machine.beginLexeme
  split
  · unfold Machine.beginName
    split
    · next cell hlookup => exact sound_singleton h (inv.lookup h hlookup)
    · exact sound_finished h
  · exact sound_finished (inv.machine_stepPlain h lexeme)

theorem machine_findFont {m : Machine} (h : I m) : I m.findFont.machine := by
  rcases hoperands : m.operands with _ | ⟨cell, rest⟩
  · rw [Machine.findFont_of_nil hoperands]
    exact h
  · rw [Machine.findFont_of_cons hoperands]
    have hrest := inv.dropOperand h hoperands
    unfold Machine.skipFonts
    split
    · exact hrest
    · next t hinput =>
        have hskip := inv.skip hrest hinput
        dsimp only
        split <;> exact hskip

theorem sound_beginConditional {m : Machine} (h : I m) : m.beginConditional.Sound I V L := by
  unfold Machine.beginConditional
  split
  · exact sound_finished h
  · next s hcondition => exact sound_finished (inv.condition h hcondition).1
  · next target s hcondition =>
      rcases inv.condition h hcondition with ⟨hmachine, htarget⟩
      exact sound_singleton hmachine (htarget target rfl)

theorem sound_enter {m : Machine} (h : I m) (name : String) {body : List String} (hbody : L body) :
    (m.enter name body).Sound I V L := by
  unfold Machine.enter
  split
  · next hdepth =>
      exact sound_append (p := ⟨[.run (.list body)], _⟩)
        (sound_singleton (inv.enter h hdepth) hbody) trivial
  · exact sound_finished h

theorem sound_beginValue {m : Machine} (h : I m) (name : String) {value : Value}
    (hvalue : V value) (hguard : ∀ p, value = .operator (.primitive p) → G p m) :
    (m.beginValue name value).Sound I V L := by
  cases value with
  | operator op =>
      cases op with
      | primitive p =>
          refine sound_finished ?_
          change I (m.perform p).machine
          rw [Machine.perform_eq]
          split
          · next s hperform => exact inv.perform h (hguard p rfl) hperform
          · exact h
      | findfont => exact sound_finished (inv.machine_findFont h)
      | conditional =>
          have hbegun := inv.sound_beginConditional h
          exact ⟨hbegun.machine, hbegun.tasks⟩
  | procedure identity body => exact inv.sound_enter h name (inv.procedure hvalue)
  | literal identity inner =>
      exact sound_finished (inv.machine_ofChange_push h name (inv.literal hvalue))
  | real x => exact sound_finished h
  | name text => exact sound_finished h
  | bool b => exact sound_finished h
  | array identity items => exact sound_finished h

theorem machine_captureInput {m : Machine} (h : I m) (lexeme : String) :
    I (m.captureInput lexeme).machine := by
  unfold Machine.captureInput
  split
  · exact h
  · next t hinput =>
      have hrest := inv.readBody h hinput
      have hbody : ∀ body, (t.capture 0).1 = .ok body → ∀ identity, V (.procedure identity body) :=
        fun _ => inv.captureInput h hinput
      dsimp only
      split
      · exact hrest
      · exact hrest
      · next body hfound => exact inv.machine_pushCaptured hrest lexeme (hbody body hfound)

/-- A lexeme of a list, and the lexemes after it. -/
theorem sound_lexeme_list {m : Machine} (h : I m) {lexeme : String} {rest : List String}
    (hlexemes : L (lexeme :: rest)) :
    ((Task.run (.list (lexeme :: rest))).perform m).Sound I V L := by
  simp only [Task.perform, Supply.take]
  cases hbegins : Machine.beginsProcedure lexeme with
  | true =>
      simp only [if_true, Supply.capture]
      cases hcapture : PathScript.capture 0 rest with
      | error depth => exact sound_singleton h inv.nil
      | ok found =>
          rcases inv.capture hlexemes hbegins hcapture with ⟨hbody, hleft⟩
          exact sound_singleton (inv.machine_pushCaptured h lexeme hbody) hleft
  | false => exact sound_append (inv.sound_beginLexeme h lexeme) (inv.tail hlexemes hbegins)

/-- A lexeme of the source, and the source after it. -/
theorem sound_lexeme_input {m : Machine} (h : I m) (lexeme : String) :
    Process.Sound I V L
      (if Machine.beginsProcedure lexeme then ⟨[.run .input], m.captureInput lexeme⟩
      else ⟨(m.beginLexeme lexeme).tasks ++ [.run .input], (m.beginLexeme lexeme).run⟩) := by
  split
  · exact sound_singleton (inv.machine_captureInput h lexeme) trivial
  · exact sound_append (inv.sound_beginLexeme h lexeme) trivial

/-- Asking the source for a lexeme and acting on it. -/
theorem sound_perform_input {m : Machine} (h : I m) :
    ((Task.run .input).perform m).Sound I V L := by
  unfold Task.perform Supply.take Machine.nextLexeme
  cases hinput : m.input with
  | none => exact sound_finished h
  | some t =>
      have hrest := inv.next h hinput
      dsimp only
      cases t.next.1 with
      | error e => exact sound_finished hrest
      | ok found =>
          cases found with
          | none => exact sound_finished hrest
          | some lexeme => exact inv.sound_lexeme_input hrest lexeme

/-- Doing a task keeps to an invariant. -/
theorem sound_perform {m : Machine} (h : I m) {task : Task} (htask : task.Sound V L)
    (hguard : ∀ p name, task = .execute (.operator (.primitive p)) name → G p m) :
    (task.perform m).Sound I V L := by
  cases task with
  | run supply =>
      cases supply with
      | list lexemes =>
          cases lexemes with
          | nil => exact sound_finished h
          | cons lexeme rest => exact inv.sound_lexeme_list h htask
      | input => exact inv.sound_perform_input h
  | execute value name =>
      exact inv.sound_beginValue h name htask fun p hvalue => hguard p name (by rw [hvalue])
  | leave => exact sound_finished (inv.leave h)

/-- So does a step. -/
theorem sound_step {p : Process} (h : p.Sound I V L)
    (hguard : ∀ op, p.performing? = some op → G op p.run.machine) : p.step.Sound I V L := by
  rcases p with ⟨tasks, r⟩
  cases tasks with
  | nil => exact h
  | cons task tasks =>
      have htask : task.Sound V L := h.tasks task List.mem_cons_self
      have hrest : ∀ other ∈ tasks, other.Sound V L :=
        fun other hmem => h.tasks other (List.mem_cons_of_mem _ hmem)
      rcases Option.eq_none_or_eq_some r.fault? with hnone | ⟨f, hsome⟩
      · rw [Process.step_of_none hnone]
        have hbegun := inv.sound_perform h.machine htask fun op name heq =>
          hguard op (Process.performing_eq_some_iff.mpr ⟨hnone, name, tasks, by rw [heq]⟩)
        -- The tasks that take the place of the first are sound, and the others still are.
        refine ⟨hbegun.machine, fun other hmem => ?_⟩
        rcases List.mem_append.mp hmem with hbefore | hafter
        · exact hbegun.tasks other hbefore
        · exact hrest other hafter
      · rw [Process.step_of_fault hsome]
        -- Dropping a task changes the machine only where a procedure is left.
        refine ⟨?_, hrest⟩
        cases task with
        | run supply => exact h.machine
        | execute value name => exact h.machine
        | leave => exact inv.leave h.machine

/-- So do any number of steps. -/
theorem sound_after {p : Process} (h : p.Sound I V L) (n : Nat)
    (hguard : ∀ k < n, ∀ op, (p.after k).performing? = some op →
      G op (p.after k).run.machine) : (p.after n).Sound I V L := by
  induction n with
  | zero => exact h
  | succ n ih =>
      have hearlier := ih fun k hk => hguard k (Nat.lt_succ_of_lt hk)
      rw [Process.after_succ]
      exact inv.sound_step hearlier (hguard n (Nat.lt_succ_self n))

end Invariant

end PathScript
