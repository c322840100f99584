import PathScript.Proofs.Balance
import PathScript.Proofs.Termination

/-!
# One Program after Another

Running two lists of lexemes one after the other is running the two together,
provided that the first leaves no procedure open: one that it did would be closed
by the second. A run is not one lexeme at a time, since a brace takes everything
up to the one that closes it, and the place where the lists meet must not fall
inside. Where each procedure that the first list begins is closed inside it, what
is captured does not change when more lexemes follow.

There are two ways to know that. A list that completes has closed what it began.
A list that is code closes what it begins whether it completes or not, and so a
fault in it is the same fault, on the same machine, whatever comes after it. The
second list is run with as many levels of procedures allowed as the first, as
running lexemes comes back to its level.

## Theorems

* `Run.andThen_andThen`: Going on twice.
* `capture_append`: What is captured from a longer list.
* `Machine.runLexemes_of_capture`, `Machine.runLexemes_of_done`: Running a list by
  its first lexeme.
* `Machine.runLexemes_append`: Running two lists one after the other.
* `Machine.runLexemes_code_append`: The same where the first may fail.
* `programs_compose`: A program after another, from outside.
-/

namespace PathScript

namespace Run

theorem fault_of_andThen {r : Run} {next : Machine → Run} (h : (r.andThen next).fault? = none) :
    r.fault? = none := by
  unfold andThen at h
  split at h
  · exact h
  · next hnone => exact hnone

theorem andThen_of_fault {r : Run} {f : Fault} (h : r.fault? = some f) (next : Machine → Run) :
    r.andThen next = r := by
  unfold andThen
  rw [h]

theorem andThen_of_none {r : Run} {next : Machine → Run} (h : r.fault? = none) :
    r.andThen next = (next r.machine).following r.events := by
  unfold andThen
  rw [h]

/-- Going on twice is going on with something that goes on. -/
theorem andThen_andThen (r : Run) (next last : Machine → Run) :
    (r.andThen next).andThen last = r.andThen fun m => (next m).andThen last := by
  rcases Option.eq_none_or_eq_some r.fault? with hnone | ⟨f, hsome⟩
  · rw [andThen_of_none hnone, andThen_of_none hnone]
    -- The events before are before those of both parts.
    unfold andThen
    simp only [following]
    split
    · rfl
    · simp only [List.append_assoc]
  · simp only [andThen, hsome]

end Run

/-- What is captured from a list is captured from a longer one, and the rest of that
    is left as well. -/
theorem capture_append {inner : Nat} {lexemes body left : List String} (more : List String)
    (h : capture inner lexemes = .ok (body, left)) :
    capture inner (lexemes ++ more) = .ok (body, left ++ more) := by
  rcases capture_eq_ok_iff.mp h with ⟨rfl, hbody⟩
  refine capture_eq_ok_iff.mpr ⟨?_, hbody⟩
  rw [List.append_assoc, List.cons_append]

namespace Machine

variable {m : Machine}

/-- Running a procedure that is closed pushes it. -/
theorem runLexemes_of_capture {call : Caller} {lexeme : String} {rest body left : List String}
    (hbegins : beginsProcedure lexeme = true) (hcapture : capture 0 rest = .ok (body, left)) :
    m.runLexemes call (lexeme :: rest)
      = (m.pushCaptured lexeme body).andThen (runLexemes call left) := by
  rw [runLexemes, if_pos hbegins]
  split
  · next hfailed =>
      rw [hcapture] at hfailed
      exact absurd hfailed (by simp only [reduceCtorEq, not_false_eq_true])
  · next hfound =>
      rw [hcapture, Except.ok.injEq, Prod.mk.injEq] at hfound
      rw [hfound.1, hfound.2]

/-- Running a lexeme that does not begin a procedure and completes without events. -/
theorem runLexemes_of_done {call : Caller} {lexeme : String} {rest : List String} {m' : Machine}
    (hbegins : beginsProcedure lexeme = false) (hstep : m.step call lexeme = .done m') :
    m.runLexemes call (lexeme :: rest) = m'.runLexemes call rest := by
  rw [runLexemes, if_neg (Bool.eq_false_iff.mp hbegins), hstep]
  rfl

/-- Running two lists one after the other, if the first completes. The induction is
    on the first, by what is left of it when its first lexeme has been run. -/
theorem runLexemes_append {call : Caller} {first : List String}
    (h : (m.runLexemes call first).fault? = none) (second : List String) :
    m.runLexemes call (first ++ second)
      = (m.runLexemes call first).andThen (runLexemes call second) := by
  fun_induction runLexemes call first m with
  | case1 m => rfl
  | case2 m lexeme rest hbegins depth hcapture =>
      -- A procedure that is not closed is a fault.
      exact absurd h (Option.some_ne_none _)
  | case3 m lexeme rest hbegins body left hcapture ih =>
      rw [List.cons_append, runLexemes_of_capture hbegins (capture_append second hcapture),
        Run.andThen_andThen]
      -- The whole completes, so this first part does, and the rest by what is assumed.
      have hpushed := Run.fault_of_andThen h
      rw [Run.andThen_of_none hpushed] at h ⊢
      rw [Run.andThen_of_none hpushed, ih _ h]
  | case4 m lexeme rest hbegins ih =>
      rw [List.cons_append, runLexemes, if_neg hbegins, Run.andThen_andThen]
      have hstep := Run.fault_of_andThen h
      rw [Run.andThen_of_none hstep] at h ⊢
      rw [Run.andThen_of_none hstep, ih _ h]

/-- Running code and then another list, whether or not the code completes. What is left
    of code when its first lexeme has been run is code, so that no procedure is cut in
    two anywhere on the way. -/
theorem runLexemes_code_append {call : Caller} {first : List String} (h : Code first)
    (second : List String) :
    m.runLexemes call (first ++ second)
      = (m.runLexemes call first).andThen (runLexemes call second) := by
  fun_induction runLexemes call first m with
  | case1 m => rfl
  | case2 m lexeme rest hbegins depth hcapture =>
      -- Code closes the procedures it begins.
      rcases h.exists_capture hbegins with ⟨body, left, hfound⟩
      rw [hcapture] at hfound
      exact absurd hfound (by simp only [reduceCtorEq, not_false_eq_true])
  | case3 m lexeme rest hbegins body left hcapture ih =>
      have hleft : Code left := (h.of_capture hbegins hcapture).2
      rw [List.cons_append, runLexemes_of_capture hbegins (capture_append second hcapture),
        Run.andThen_andThen]
      exact congrArg (Run.andThen _) (funext fun m => ih m hleft)
  | case4 m lexeme rest hbegins ih =>
      have hrest : Code rest := h.of_cons (Bool.eq_false_iff.mpr hbegins)
      rw [List.cons_append, runLexemes, if_neg hbegins, Run.andThen_andThen]
      exact congrArg (Run.andThen _) (funext fun m => ih m hrest)

/-- Running lexemes from outside comes back to the level it started from, so that as
    many further levels are allowed afterwards. -/
theorem allowance_runList (m : Machine) (lexemes : List String) :
    (m.runList lexemes).machine.allowance = m.allowance :=
  (sameLevel_runLexemes _ (callerAt_level _) lexemes m).allowance_eq

end Machine

/-- Programs compose. Running code and another list of lexemes as one is running the code
    and then, if it completes, the other list on the machine that it leaves, with all
    that can be observed on the way. If the code fails, the two together fail in the same
    way and leave the same machine. -/
theorem programs_compose (m : Machine) (first second : List String) (h : Code first) :
    ((m.runList first).fault? = none →
      m.runList (first ++ second)
        = ((m.runList first).machine.runList second).following (m.runList first).events) ∧
    (∀ f, (m.runList first).fault? = some f →
      m.runList (first ++ second) = m.runList first) := by
  have happend : m.runList (first ++ second)
      = (m.runList first).andThen (Machine.runLexemes (callerAt m.allowance) second) :=
    Machine.runLexemes_code_append h second
  refine ⟨fun hnone => ?_, fun f hsome => ?_⟩
  · rw [happend, Run.andThen_of_none hnone]
    -- The machine that is left allows as many levels, and is run on with the same caller.
    unfold Machine.runList
    rw [show (m.runLexemes (callerAt m.allowance) first).machine.allowance = m.allowance from
      m.allowance_runList first]
  · rw [happend, Run.andThen_of_fault hsome]

/-- Code that defines a procedure with another one inside and invokes it, and a list that
    does so again. Each time the procedure passes over lines of the source, up to the next
    marker, and not over any of the lexemes that are run. The code fails instead on a
    machine with no source, and the list after it is not begun. -/
theorem programs_compose_passing_lines :
    let m := Machine.start Settings.standard (.text "a\n%%EndProlog\nb\n%%EndProlog\nc")
    let detached : Machine := { m with input := none }
    let first := ["/f", openBrace, "/x", "findfont", openBrace, "1", closeBrace, "pop", closeBrace,
      "def", "f"]
    let second := ["f", "2", openBrace]
    Code first ∧ (m.runList first).fault? = none ∧
    (m.runList first).machine.line? = some 2 ∧
    (m.runList (first ++ second)).machine.line? = some 4 ∧
    m.runList (first ++ second)
      = ((m.runList first).machine.runList second).following (m.runList first).events ∧
    (detached.runList first).fault? = some .nothingToSkip ∧
    detached.runList (first ++ second) = detached.runList first := by
  intro m detached first second
  have hcode : Code first := by decide +kernel
  have hend : let p := (Process.start m (.list first)).after 20
      let q := (Process.start m (.list (first ++ second))).after 30
      let r := (Process.start detached (.list first)).after 20
      (p.tasks.isEmpty = true ∧ q.tasks.isEmpty = true ∧ r.tasks.isEmpty = true) ∧
        p.run.fault? = none ∧ p.run.machine.line? = some 2 ∧ q.run.machine.line? = some 4 ∧
        r.run.fault? = some .nothingToSkip := by decide +kernel
  rcases hend with ⟨⟨htasks, htasks', htasks''⟩, hnone, hline, hline', hfault⟩
  have hrun : ((Process.start m (.list first)).after 20).run = m.runList first :=
    (Process.runFrom_eq_of_tasks_nil (List.isEmpty_iff.mp htasks)).symm
  have hrun' : ((Process.start m (.list (first ++ second))).after 30).run
      = m.runList (first ++ second) :=
    (Process.runFrom_eq_of_tasks_nil (List.isEmpty_iff.mp htasks')).symm
  have hrun'' : ((Process.start detached (.list first)).after 20).run = detached.runList first :=
    (Process.runFrom_eq_of_tasks_nil (List.isEmpty_iff.mp htasks'')).symm
  rw [hrun] at hnone hline
  rw [hrun'] at hline'
  rw [hrun''] at hfault
  exact ⟨hcode, hnone, hline, hline', (programs_compose m first second hcode).1 hnone, hfault,
    (programs_compose detached first second hcode).2 _ hfault⟩

end PathScript
