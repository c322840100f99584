import PathScript.Proofs.Bounds
import PathScript.Proofs.Holdings
import PathScript.Proofs.Nesting

/-!
# Processes on a Host

A process has all the room it needs. A host has not. There is room for only so many
operands, and a procedure that is running, or a conditional that executes something, is
a call that the host keeps open until it returns, of which there can be only so many at
a time.

Here a process runs on a host, and the host gives up when it cannot bear what the next
step leads to. Up to there nothing is different from a process by itself.

The limit on nesting is one on procedures. What it does not count are conditionals that
execute conditionals: each of them is open until the last one returns, and there can be
as many as there are operands for them. This takes the conditional itself as an operand,
which a program has to look up on purpose. A program that does not hold it anywhere has
at most one conditional open in each procedure.

## Main definitions

* `Calls`: The calls that are open.
* `Host`: What a host can bear.
* `Hosted`: A process on a host.
* `Host.step`, `Host.after`: What a host does.
* `ChainRule`: What keeps chains of conditionals short.
* `Hosted.InOrder`: The open calls are those of the tasks, with chains that are short.

## Theorems

* `Host.exists_process_after`: A process on a host is a process.
* `Host.forall_after`: What is true of all processes is true on a host.
* `Host.exists_of_exhausted`: Why a host gives up.
* `Calls.conditionals_le`: Short chains are few conditionals.
* `Hosted.within_next`, `Hosted.inOrder_next`: A step keeps chains short.
* `chainRule_of_room`, `chainRule_of_not_holds`: Two reasons for chains to be short.
-/

namespace PathScript

/-- The calls that are open on a host. -/
structure Calls where
  /-- The conditionals that are open in the procedure that is running, or in the source if
      there is none. -/
  chain : Nat
  /-- Those that are open in the procedures around it and in the source, innermost
      first. -/
  outer : List Nat

namespace Calls

/-- Nothing has been called. -/
def none : Calls := ⟨0, []⟩

/-- The procedures that are running. -/
def procedures (c : Calls) : Nat := c.outer.length

/-- The conditionals that are open. -/
def conditionals (c : Calls) : Nat := c.outer.foldr (· + ·) c.chain

/-- After the procedure that is running has returned. -/
def left (c : Calls) : Calls :=
  match c.outer with
  | [] => none
  | chain :: outer => ⟨chain, outer⟩

end Calls

namespace Task

/-- The calls that are open when a task has been done. A lexeme is run when those before
    it have returned, and a conditional is open from the moment it looks at its
    operands. -/
def callsAfter (m : Machine) (c : Calls) : Task → Calls
  | .run _ => { c with chain := 0 }
  | .execute (.operator .conditional) _ => { c with chain := c.chain + 1 }
  | .execute (.procedure _ _) _ =>
      if (m.depth : Int) < m.settings.maxDepth then ⟨0, c.chain :: c.outer⟩ else c
  | .execute _ _ => c
  | .leave => c.left

/-- The calls that are open when a task has been dropped. -/
def callsWithout (c : Calls) : Task → Calls
  | .leave => c.left
  | _ => c

/-- Whether a task is to execute a value. -/
def isExecute : Task → Bool
  | .execute _ _ => true
  | _ => false

end Task

/-- The calls that are open after a step. -/
def Process.callsAfter (p : Process) (c : Calls) : Calls :=
  match p.tasks with
  | [] => c
  | task :: _ =>
      match p.run.fault? with
      | some _ => task.callsWithout c
      | none => task.callsAfter p.run.machine c

/-- What a host can bear. -/
structure Host where
  /-- The number of operands that there is room for. -/
  room : Nat
  /-- A host does not count further than a word reaches. -/
  room_lt : room < twoTo 63
  /-- Whether so many procedures and so many conditionals can be open at once. -/
  bears : Nat → Nat → Bool

/-- A process on a host. -/
structure Hosted where
  process : Process
  calls : Calls
  /-- Whether the host has given up. -/
  exhausted : Bool

namespace Hosted

/-- A machine on a host, with its source to run. -/
def start (m : Machine) : Hosted := ⟨.start m .input, .none, false⟩

/-- The machine as it is. -/
def machine (s : Hosted) : Machine := s.process.run.machine

/-- What the next step leads to. -/
def next (s : Hosted) : Hosted :=
  { s with process := s.process.step, calls := s.process.callsAfter s.calls }

end Hosted

namespace Host

/-- Whether a host can bear something. -/
def admits (host : Host) (s : Hosted) : Bool :=
  decide (s.machine.operands.length ≤ host.room)
    && host.bears s.calls.procedures s.calls.conditionals

/-- A step on a host, or giving up. -/
def step (host : Host) (s : Hosted) : Hosted :=
  if s.exhausted then s
  else if host.admits s.next then s.next
  else { s with exhausted := true }

/-- What a number of steps on a host leads to. -/
def after (host : Host) : Nat → Hosted → Hosted
  | 0, s => s
  | n + 1, s => host.step (host.after n s)

variable (host : Host)

/-- A process on a host is a process that has made as many steps, or fewer if the host has
    given up, and with room for its operands all the time. -/
theorem exists_process_after (m : Machine) (hm : m.operands = []) (n : Nat) :
    ∃ k ≤ n, (host.after n (.start m)).process = (Process.start m .input).after k ∧
      ((host.after n (.start m)).exhausted = false → k = n) ∧
      ∀ j ≤ k, ((Process.start m .input).after j).run.machine.operands.length ≤ host.room := by
  induction n with
  | zero =>
      refine ⟨0, Nat.le_refl 0, rfl, fun _ => rfl, fun j hj => ?_⟩
      rw [Nat.le_zero.mp hj]
      change m.operands.length ≤ host.room
      rw [hm]
      exact Nat.zero_le _
  | succ n ih =>
      rcases ih with ⟨k, hk, hprocess, hsteps, hroom⟩
      -- The host makes the step of the process, or stays where it is from here on.
      rw [after, step]
      cases hexhausted : (host.after n (.start m)).exhausted with
      | true =>
          rw [if_pos rfl]
          exact ⟨k, Nat.le_succ_of_le hk, hprocess,
            fun h => absurd (h.symm.trans hexhausted) Bool.false_ne_true, hroom⟩
      | false =>
          rw [if_neg Bool.false_ne_true]
          split
          · next hadmits =>
              have hnext : (host.after n (.start m)).next.process
                  = (Process.start m .input).after (k + 1) := by
                rw [Process.after_succ, ← hprocess]
                rfl
              refine ⟨k + 1, Nat.succ_le_succ hk, hnext, fun _ => by rw [hsteps hexhausted], ?_⟩
              intro j hj
              rcases Nat.lt_succ_iff_lt_or_eq.mp (Nat.lt_succ_of_le hj) with hlt | rfl
              · exact hroom j (Nat.le_of_lt_succ hlt)
              · rw [← hnext]
                exact of_decide_eq_true (Bool.and_eq_true_iff.mp hadmits).1
          · exact ⟨k, Nat.le_succ_of_le hk, hprocess, fun h => absurd h.symm Bool.false_ne_true,
              hroom⟩

/-- What is true of every machine that a process passes through by itself is true of those
    on a host. -/
theorem forall_after {P : Machine → Prop} (m : Machine) (hm : m.operands = [])
    (h : ∀ k, P ((Process.start m .input).after k).run.machine) (n : Nat) :
    P (host.after n (.start m)).machine := by
  rcases host.exists_process_after m hm n with ⟨k, _, hprocess, _⟩
  rw [Hosted.machine, hprocess]
  exact h k

/-- There is room for the operands of a process on a host. -/
theorem operands_le (m : Machine) (hm : m.operands = []) (n : Nat) :
    (host.after n (.start m)).machine.operands.length ≤ host.room := by
  rcases host.exists_process_after m hm n with ⟨k, _, hprocess, _, hroom⟩
  rw [Hosted.machine, hprocess]
  exact hroom k (Nat.le_refl k)

/-- A host that has not given up had not before. -/
theorem running_of_le {s : Hosted} {k n : Nat} (hk : k ≤ n)
    (h : (host.after n s).exhausted = false) : (host.after k s).exhausted = false := by
  induction n with
  | zero =>
      rw [Nat.le_zero.mp hk]
      exact h
  | succ n ih =>
      rcases Nat.lt_succ_iff_lt_or_eq.mp (Nat.lt_succ_of_le hk) with hlt | rfl
      · refine ih (Nat.le_of_lt_succ hlt) ?_
        cases hearlier : (host.after n s).exhausted with
        | false => rfl
        | true =>
            rw [after, step, hearlier, if_pos rfl] at h
            exact absurd (h.symm.trans hearlier) Bool.false_ne_true
      · exact h

/-- A host that has given up could not bear some step. -/
theorem exists_of_exhausted {s : Hosted} (hs : s.exhausted = false) {n : Nat}
    (h : (host.after n s).exhausted = true) :
    ∃ k < n, (host.after k s).exhausted = false ∧ host.admits (host.after k s).next = false := by
  induction n with
  | zero => exact absurd (hs.symm.trans h) Bool.false_ne_true
  | succ n ih =>
      cases hearlier : (host.after n s).exhausted with
      | true =>
          rcases ih hearlier with ⟨k, hk, hfound⟩
          exact ⟨k, Nat.lt_succ_of_lt hk, hfound⟩
      | false =>
          refine ⟨n, Nat.lt_succ_self n, hearlier, ?_⟩
          rw [after, step, hearlier, if_neg Bool.false_ne_true] at h
          split at h
          · exact absurd (hearlier.symm.trans h) Bool.false_ne_true
          · next hadmits => exact eq_false_of_ne_true hadmits

end Host

/-- Chains of conditionals that are no longer than a bound. -/
structure Calls.Within (bound : Nat) (c : Calls) : Prop where
  chain : c.chain ≤ bound
  outer : ∀ chain ∈ c.outer, chain ≤ bound

namespace Calls

variable {bound : Nat} {c : Calls}

theorem within_none : Calls.none.Within bound :=
  ⟨Nat.zero_le _, fun _ h => absurd h List.not_mem_nil⟩

theorem Within.left (h : c.Within bound) : c.left.Within bound := by
  unfold Calls.left
  split
  · exact within_none
  · next chain outer houter =>
      have hall := h.outer
      rw [houter] at hall
      exact ⟨hall chain List.mem_cons_self,
        fun other hmem => hall other (List.mem_cons_of_mem _ hmem)⟩

theorem procedures_left (c : Calls) : c.left.procedures = c.procedures - 1 := by
  unfold procedures Calls.left
  split
  · next houter => rw [houter]; rfl
  · next houter => rw [houter]; rfl

/-- If chains are short, there are not many conditionals for the procedures that are
    running. -/
theorem conditionals_le (h : c.Within bound) :
    c.conditionals ≤ (c.procedures + 1) * bound := by
  have houter : ∀ chains : List Nat, (∀ chain ∈ chains, chain ≤ bound) →
      chains.foldr (· + ·) c.chain ≤ (chains.length + 1) * bound := by
    intro chains hall
    induction chains with
    | nil => simpa using h.chain
    | cons chain chains ih =>
        rcases List.forall_mem_cons.mp hall with ⟨hchain, hchains⟩
        have hrest := ih hchains
        rw [List.foldr_cons, List.length_cons, Nat.add_mul (chains.length + 1), Nat.one_mul]
        omega
  exact houter c.outer h.outer

end Calls

/-- What keeps chains of conditionals short: something known of machines, and what it
    takes for a value to be executed with a number of conditionals open around it. -/
structure ChainRule (bound : Nat) (A : Machine → Prop) (E : Nat → Value → Machine → Prop) :
    Prop where
  /-- A value that a lexeme has looked up. -/
  begin : ∀ {m : Machine}, A m → ∀ value, E 0 value m
  /-- A value that a conditional has been given. -/
  chain : ∀ {m : Machine} {count : Nat} {target : Value} {s : State}, A m →
    E count (.operator .conditional) m → m.takeCondition = .ok (some target, s) →
      E (count + 1) target { m with toState := s }
  bound : ∀ {m : Machine} {count : Nat}, E count (.operator .conditional) m → count < bound

/-- What comes of running lexemes: the level is the same, and there may be a value to
    execute before what is left of them. -/
structure Process.Reads (m : Machine) (p : Process) : Prop where
  level : m.SameLevel p.run.machine
  tasks : p.tasks = [] ∨ (∃ left, p.tasks = [.run left]) ∨
    ∃ value name left, p.tasks = [.execute value name, .run left]

namespace Task

variable {m : Machine} {task : Task}

/-- What comes of a lexeme goes before what is left. -/
theorem reads_begins {m' : Machine} {p : Process} (hlevel : m.SameLevel m') (h : p.Begins m')
    (left : Supply) : Process.Reads m ⟨p.tasks ++ [.run left], p.run⟩ := by
  refine ⟨hlevel.trans h.level, ?_⟩
  rcases h.tasks with htasks | ⟨value, name, htasks⟩
  · exact .inr (.inl ⟨left, by rw [htasks]; rfl⟩)
  · exact .inr (.inr ⟨value, name, left, by rw [htasks]; rfl⟩)

theorem reads_perform (m : Machine) (supply : Supply) :
    ((Task.run supply).perform m).Reads m := by
  cases supply with
  | list lexemes =>
      cases lexemes with
      | nil => exact ⟨.refl m, .inl rfl⟩
      | cons lexeme rest =>
          simp only [perform, Supply.take]
          split
          · simp only [Supply.capture]
            split
            · exact ⟨.refl m, .inr (.inl ⟨_, rfl⟩)⟩
            · exact ⟨m.sameLevel_pushCaptured lexeme _, .inr (.inl ⟨_, rfl⟩)⟩
          · exact reads_begins (.refl m) (m.begins_beginLexeme lexeme) _
  | input =>
      have hread := m.sameLevel_nextLexeme
      simp only [perform, Supply.take]
      rcases hnext : m.nextLexeme with ⟨found, rest⟩
      rw [hnext] at hread
      rcases found with fault | _ | lexeme
      · exact ⟨hread, .inl rfl⟩
      · exact ⟨hread, .inl rfl⟩
      · dsimp only
        split
        · exact ⟨hread.trans (rest.sameLevel_captureInput lexeme), .inr (.inl ⟨_, rfl⟩)⟩
        · exact reads_begins hread (rest.begins_beginLexeme lexeme) _

/-- Executing a value other than a procedure keeps to the level. -/
theorem begins_beginValue (m : Machine) (name : String) {value : Value}
    (h : ∀ identity body, value ≠ .procedure identity body) :
    (m.beginValue name value).Begins m := by
  cases value with
  | operator op => exact ⟨(m.begins_beginOperator op).level, (m.begins_beginOperator op).tasks⟩
  | procedure identity body => exact absurd rfl (h identity body)
  | literal identity inner => exact Machine.begins_finished (m.sameLevel_ofChange _ _)
  | real x => exact Machine.begins_finished (.refl m)
  | name text => exact Machine.begins_finished (.refl m)
  | bool b => exact Machine.begins_finished (.refl m)
  | array identity items => exact Machine.begins_finished (.refl m)

/-- At most the first of the tasks that take the place of another is to execute a
    value. -/
theorem isExecute_of_mem_tail {other : Task} (h : other ∈ (task.perform m).tasks.tail) :
    other.isExecute = false := by
  cases task with
  | run supply =>
      rcases (reads_perform m supply).tasks with
        htasks | ⟨left, htasks⟩ | ⟨value, name, left, htasks⟩
      · rw [htasks] at h; cases h
      · rw [htasks] at h; cases h
      · rw [htasks] at h
        rw [List.mem_singleton.mp h]
        rfl
  | execute value name =>
      by_cases hvalue : ∃ identity body, value = .procedure identity body
      · rcases hvalue with ⟨identity, body, rfl⟩
        simp only [perform, Machine.beginValue, Machine.enter] at h
        split at h
        · rw [List.mem_singleton.mp h]
          rfl
        · cases h
      · have hbegins :=
          begins_beginValue m name fun identity body heq => hvalue ⟨identity, body, heq⟩
        rcases hbegins.tasks with htasks | ⟨target, other', htasks⟩
        · rw [perform, htasks] at h; cases h
        · rw [perform, htasks] at h; cases h
  | leave => cases h

/-- As many procedures are running as the machine has it, after a task as before. -/
theorem procedures_callsAfter {c : Calls} (h : c.procedures = m.depth) :
    (task.callsAfter m c).procedures = (task.perform m).run.machine.depth := by
  cases task with
  | run supply =>
      rw [(reads_perform m supply).level.depth_eq]
      exact h
  | execute value name =>
      by_cases hvalue : ∃ identity body, value = .procedure identity body
      · rcases hvalue with ⟨identity, body, rfl⟩
        simp only [callsAfter, perform, Machine.beginValue, Machine.enter]
        split
        · change c.outer.length + 1 = m.depth + 1
          rw [← h, Calls.procedures]
        · exact h
      · have hbegins :=
          begins_beginValue m name fun identity body heq => hvalue ⟨identity, body, heq⟩
        rw [perform, hbegins.level.depth_eq, ← h]
        cases value with
        | operator op => cases op <;> rfl
        | procedure identity body => exact absurd ⟨identity, body, rfl⟩ hvalue
        | real _ | name _ | bool _ | array _ _ | literal _ _ => rfl
  | leave =>
      rw [callsAfter, Calls.procedures_left, h]
      rfl

end Task

/-- The open calls belong to the tasks that are left, with chains that are short. -/
structure Hosted.InOrder (bound : Nat) (E : Nat → Value → Machine → Prop) (s : Hosted) :
    Prop where
  /-- Nothing but the first task is to execute a value. -/
  single : ∀ task ∈ s.process.tasks.tail, task.isExecute = false
  level : s.calls.procedures = s.machine.depth
  within : s.calls.Within bound
  /-- A value is to be executed with a chain around it that allows it. -/
  chained : ∀ value name rest, s.process.run.fault? = none →
    s.process.tasks = .execute value name :: rest → E s.calls.chain value s.machine

namespace Hosted

variable {bound : Nat} {A : Machine → Prop} {E : Nat → Value → Machine → Prop}
  (rule : ChainRule bound A E) {s : Hosted}

theorem inOrder_start {m : Machine} (hm : m.depth = 0) : (start m).InOrder bound E where
  single := fun _ h => absurd h List.not_mem_nil
  level := hm.symm
  within := Calls.within_none
  chained := fun _ _ _ _ h => absurd (List.cons.inj h).1 (by simp)

/-- A step of a process with tasks, and the calls that it leaves open. -/
theorem next_of_cons {task : Task} {tasks : List Task} (htasks : s.process.tasks = task :: tasks) :
    (∀ f, s.process.run.fault? = some f →
      s.next.process.tasks = tasks ∧ s.next.process.run.fault? = some f ∧
        s.next.machine = task.abandon s.machine ∧ s.next.calls = task.callsWithout s.calls) ∧
    (s.process.run.fault? = none →
      s.next.process.tasks = (task.perform s.machine).tasks ++ tasks ∧
        s.next.process.run.fault? = (task.perform s.machine).run.fault? ∧
        s.next.machine = (task.perform s.machine).run.machine ∧
        s.next.calls = task.callsAfter s.machine s.calls) := by
  have hprocess : s.process = ⟨task :: tasks, s.process.run⟩ := by rw [← htasks]
  have hcalls : s.next.calls = s.process.callsAfter s.calls := rfl
  have hnext : s.next.process = s.process.step := rfl
  refine ⟨fun f hf => ?_, fun hnone => ?_⟩
  · have hstep := hnext
    rw [hprocess, Process.step_of_fault hf] at hstep
    refine ⟨by rw [hstep], by rw [hstep]; exact hf, ?_, ?_⟩
    · rw [machine, hstep]
      rfl
    · rw [hcalls, Process.callsAfter, htasks, hf]
  · have hstep := hnext
    rw [hprocess, Process.step_of_none hnone] at hstep
    refine ⟨by rw [hstep]; rfl, by rw [hstep]; rfl, ?_, ?_⟩
    · rw [machine, hstep]
      rfl
    · rw [hcalls, Process.callsAfter, htasks, hnone]
      rfl

theorem next_of_nil (htasks : s.process.tasks = []) : s.next = s := by
  rcases s with ⟨⟨tasks, r⟩, c, exhausted⟩
  cases htasks
  rfl

theorem single_next (h : s.InOrder bound E) :
    ∀ task ∈ s.next.process.tasks.tail, task.isExecute = false := by
  rcases htasks : s.process.tasks with _ | ⟨task, tasks⟩
  · rw [next_of_nil htasks]
    exact h.single
  · have hrest := h.single
    rw [htasks, List.tail_cons] at hrest
    rcases Option.eq_none_or_eq_some s.process.run.fault? with hnone | ⟨f, hf⟩
    · rw [((next_of_cons htasks).2 hnone).1]
      intro other hother
      -- What the task leaves to do goes in front, and only the head of it can be an
      -- execution. If it leaves nothing, the tail of the rest is a tail of the old one.
      rcases hperformed : (task.perform s.machine).tasks with _ | ⟨first, begun⟩
      · rw [hperformed, List.nil_append] at hother
        exact hrest other (List.mem_of_mem_tail hother)
      · rw [hperformed, List.cons_append, List.tail_cons] at hother
        rcases List.mem_append.mp hother with hbegun | hlater
        · have htail : other ∈ (task.perform s.machine).tasks.tail := by
            rw [hperformed]
            exact hbegun
          exact Task.isExecute_of_mem_tail htail
        · exact hrest other hlater
    · rw [((next_of_cons htasks).1 f hf).1]
      exact fun other hother => hrest other (List.mem_of_mem_tail hother)

theorem level_next (h : s.InOrder bound E) :
    s.next.calls.procedures = s.next.machine.depth := by
  rcases htasks : s.process.tasks with _ | ⟨task, tasks⟩
  · rw [next_of_nil htasks]
    exact h.level
  · rcases Option.eq_none_or_eq_some s.process.run.fault? with hnone | ⟨f, hf⟩
    · rcases (next_of_cons htasks).2 hnone with ⟨_, _, hmachine, hcalls⟩
      rw [hmachine, hcalls]
      exact Task.procedures_callsAfter h.level
    · rcases (next_of_cons htasks).1 f hf with ⟨_, _, hmachine, hcalls⟩
      rw [hmachine, hcalls]
      cases task with
      | leave =>
          rw [Task.callsWithout, Calls.procedures_left, h.level]
          rfl
      | run _ | execute _ _ => exact h.level

include rule

/-- A step keeps chains short. -/
theorem within_next (h : s.InOrder bound E) : s.next.calls.Within bound := by
  rcases htasks : s.process.tasks with _ | ⟨task, tasks⟩
  · rw [next_of_nil htasks]
    exact h.within
  · rcases Option.eq_none_or_eq_some s.process.run.fault? with hnone | ⟨f, hf⟩
    · rw [((next_of_cons htasks).2 hnone).2.2.2]
      cases task with
      | run supply => exact ⟨Nat.zero_le _, h.within.outer⟩
      | leave => exact h.within.left
      | execute value name =>
          cases value with
          | operator op =>
              cases op with
              | conditional =>
                  -- The only step that makes a chain longer.
                  exact ⟨rule.bound (h.chained _ _ _ hnone htasks), h.within.outer⟩
              | primitive _ | findfont => exact h.within
          | procedure identity body =>
              simp only [Task.callsAfter]
              split
              · exact ⟨Nat.zero_le _, List.forall_mem_cons.mpr ⟨h.within.chain, h.within.outer⟩⟩
              · exact h.within
          | real _ | name _ | bool _ | array _ _ | literal _ _ => exact h.within
    · rw [((next_of_cons htasks).1 f hf).2.2.2]
      cases task with
      | leave => exact h.within.left
      | run _ | execute _ _ => exact h.within

/-- A value that is to be executed after a step has a chain around it that allows it: it
    was looked up by a lexeme, or a conditional has been given it. -/
theorem chained_next (h : s.InOrder bound E) (hbefore : A s.machine) (hafter : A s.next.machine)
    {value : Value} {name : String} {rest : List Task} (hnone : s.next.process.run.fault? = none)
    (hvalue : s.next.process.tasks = .execute value name :: rest) :
    E s.next.calls.chain value s.next.machine := by
  rcases htasks : s.process.tasks with _ | ⟨task, tasks⟩
  · rw [next_of_nil htasks] at hnone hvalue ⊢
    exact h.chained value name rest hnone hvalue
  · -- What was not the first task before is not the execution of a value.
    have hlater : tasks ≠ .execute value name :: rest := by
      intro htail
      have hexecute := h.single (.execute value name)
        (by rw [htasks, htail]; exact List.mem_cons_self)
      cases hexecute
    rcases Option.eq_none_or_eq_some s.process.run.fault? with hearlier | ⟨f, hf⟩
    · rcases (next_of_cons htasks).2 hearlier with ⟨hnext, _, hmachine, hcalls⟩
      rw [hnext] at hvalue
      rw [hcalls]
      cases task with
      | run supply => exact rule.begin hafter value
      | leave => exact absurd hvalue hlater
      | execute executed other =>
          rw [hmachine]
          cases executed with
          | operator op =>
              cases op with
              | conditional =>
                  simp only [Task.perform, Machine.beginValue, Machine.beginOperator,
                    Machine.beginConditional, Process.noting] at hvalue ⊢
                  split at hvalue
                  · exact absurd hvalue hlater
                  · exact absurd hvalue hlater
                  · next target state hcondition =>
                      cases hvalue
                      exact rule.chain hbefore (h.chained _ _ _ hearlier htasks) hcondition
              | primitive _ | findfont => exact absurd hvalue hlater
          | procedure identity body =>
              simp only [Task.perform, Machine.beginValue, Machine.enter] at hvalue
              split at hvalue
              · cases hvalue
              · exact absurd hvalue hlater
          | real _ | name _ | bool _ | array _ _ | literal _ _ => exact absurd hvalue hlater
    · rw [((next_of_cons htasks).1 f hf).2.1] at hnone
      cases hnone

theorem inOrder_next (h : s.InOrder bound E) (hbefore : A s.machine) (hafter : A s.next.machine) :
    s.next.InOrder bound E :=
  ⟨single_next h, level_next h, within_next rule h,
    fun _ _ _ => chained_next rule h hbefore hafter⟩

end Hosted

namespace Host

variable (host : Host)

/-- At its end a process stays as it is on a host that can bear it. -/
theorem after_of_nil {s : Hosted} {n : Nat} (htasks : (host.after n s).process.tasks = [])
    (hrunning : (host.after n s).exhausted = false)
    (hadmits : host.admits (host.after n s) = true) (k : Nat) :
    host.after (n + k) s = host.after n s := by
  induction k with
  | zero => rfl
  | succ k ih =>
      rw [← Nat.add_assoc, after, ih, step, hrunning, if_neg Bool.false_ne_true,
        Hosted.next_of_nil htasks, if_pos hadmits]

/-- Whatever a host does, chains stay short. -/
theorem inOrder_after {bound : Nat} {A : Machine → Prop} {E : Nat → Value → Machine → Prop}
    (rule : ChainRule bound A E) {m : Machine} (hm : m.depth = 0)
    (hA : ∀ n, A (host.after n (.start m)).machine) (n : Nat) :
    (host.after n (.start m)).InOrder bound E := by
  induction n with
  | zero => exact Hosted.inOrder_start hm
  | succ n ih =>
      have hafter := hA (n + 1)
      rw [after, step] at hafter ⊢
      split
      · exact ih
      · next hrunning =>
          rw [if_neg hrunning] at hafter
          split
          · next hadmits =>
              rw [if_pos hadmits] at hafter
              exact Hosted.inOrder_next rule ih (hA n) hafter
          · -- Giving up leaves the process and its calls as they are.
            exact ⟨ih.single, ih.level, ih.within, ih.chained⟩

end Host

/-- A conditional takes two operands off, so there are no more of them in a chain than
    operands that there is room for. -/
theorem chainRule_of_room (room : Nat) :
    ChainRule (room / 2 + 1) (fun m => m.operands.length ≤ room)
      (fun count _ m => 2 * count + m.operands.length ≤ room) where
  begin := by
    intro m hroom value
    omega
  chain := by
    intro m count target s _ hcount htaken
    rcases State.takeCondition_eq_ok_iff.mp htaken with
      ⟨_, _, _, _, rest, hoperands, _, _, rfl⟩
    rw [hoperands, List.length_cons, List.length_cons] at hcount
    -- One conditional more, two operands less.
    change 2 * (count + 1) + rest.length ≤ room
    omega
  bound := by
    intro m count hcount
    omega

/-- A conditional that is not held anywhere is not what another conditional is given, so
    it is executed only as lexemes look it up. -/
theorem chainRule_of_not_holds :
    ChainRule 1 (fun m => ¬m.Holds (.operator .conditional))
      (fun count value _ => value = .operator .conditional → count = 0) where
  begin := fun _ _ _ => rfl
  chain := by
    rintro m count target s hholds _ htaken rfl
    rcases State.takeCondition_eq_ok_iff.mp htaken with
      ⟨value, object, b, other, rest, hoperands, _, htarget, _⟩
    have hvalue : value = .operator .conditional := by
      cases b with
      | true => exact (Option.some.inj htarget).symm
      | false => cases htarget
    refine absurd (Or.inl ⟨⟨value, object⟩, ?_, ?_⟩) hholds
    · rw [hoperands]
      exact List.mem_cons_self
    · rw [hvalue]
      exact .self
  bound := fun hcount => Nat.lt_one_iff.mpr (hcount rfl)

end PathScript
