import PathScript.Proofs.Holdings
import PathScript.Proofs.Nesting

/-!
# Captured Code

A procedure is captured before anything in it runs, up to the brace that closes
it. So the body of every procedure that a program comes to hold is balanced,
and nothing that is done with procedures afterwards takes a body apart.

There are two faults about braces: a brace that closes nothing, and one that
is not closed before the lexemes end. Neither can happen while a body runs,
since what is left of a body is balanced as well. Both are faults of the source
as such, at the outermost level. Operators report many faults, some of the
same kinds, but never under the name of a brace.

## Main definitions

* `Value.HasCode`: A procedure with a body of balanced lexemes.
* `Fault.IsBrace`: A brace that closes nothing or is not closed.
* `Run.SparesBraces`: A run without such a fault.

## Theorems

* `hasCode_upheld`: All procedures have bodies of balanced lexemes.
* `Task.sparesBraces_perform`: Only reading the source has faults about braces.
* `captured_code_balanced`: Procedures are balanced, and faults about braces
  are faults of the source.
-/

namespace PathScript

/-- A value that, if it is a procedure, has a body of balanced lexemes. -/
def Value.HasCode : Value → Prop
  | .procedure _ body => Code body
  | _ => True

/-- All procedures have bodies of balanced lexemes, if those that are run are
    balanced. -/
theorem hasCode_upheld : Upheld Value.HasCode Code where
  name := fun _ => trivial
  bool := fun _ => trivial
  operator := fun _ => trivial
  real := fun _ _ => trivial
  negated := fun _ _ => trivial
  count := fun _ => trivial
  array := fun _ _ => trivial
  literal := fun _ _ _ => trivial
  body := fun h => h
  nil := code_nil
  tail := fun h hbegins => h.of_cons hbegins
  capture := fun h hbegins hcapture =>
    ⟨fun _ => (h.of_capture hbegins hcapture).1, (h.of_capture hbegins hcapture).2⟩
  captureInput := fun ht hcapture _ => Tokenizer.code_of_capture ht hcapture

/-- A brace that closes nothing, or one that is not closed. -/
def Fault.IsBrace : Fault → Prop
  | .report r => r.kind = .unknownToken ∧ r.command = some closeBrace ∨
      r.kind = .lexical ∧ r.command = some openBrace
  | _ => False

/-- A run that has no fault about braces. -/
def Run.SparesBraces (r : Run) : Prop := ∀ fault, r.fault? = some fault → ¬ fault.IsBrace

/-- Names under which no fault about braces is reported. -/
def Bare (command : String) : Prop :=
  commandName command ≠ closeBrace ∧ commandName command ≠ openBrace

theorem Operator.bare_name (op : Operator) : Bare op.name := by
  have hall : ∀ op ∈ all, commandName op.name ≠ closeBrace ∧ commandName op.name ≠ openBrace := by
    decide +kernel
  exact hall op op.mem_all

namespace Machine

variable {m : Machine}

theorem sparesBraces_failed {fault : Fault} (h : ¬ fault.IsBrace) :
    (Run.failed m fault).SparesBraces := by
  intro other hfault
  rw [← Option.some.inj hfault]
  exact h

/-- A fault about another command. -/
theorem sparesBraces_of_bare {command : String} {c : Complaint} {m' : Machine}
    (h : Bare command) : (Run.failed m' (m.fault command c)).SparesBraces := by
  refine sparesBraces_failed fun hbrace => ?_
  cases c with
  | undefinedArithmetic => exact hbrace
  | report kind detail =>
      rcases hbrace with ⟨_, hcommand⟩ | ⟨_, hcommand⟩
      · exact h.1 (Option.some.inj hcommand)
      · exact h.2 (Option.some.inj hcommand)

/-- A fault of another kind. -/
theorem sparesBraces_of_kind {command : String} {kind : ErrorKind} {detail : Option String}
    {m' : Machine} (htoken : kind ≠ .unknownToken) (hlexical : kind ≠ .lexical) :
    (Run.failed m' (m.fault command (.report kind detail))).SparesBraces := by
  refine sparesBraces_failed fun hbrace => ?_
  rcases hbrace with ⟨hkind, _⟩ | ⟨hkind, _⟩
  · exact htoken hkind
  · exact hlexical hkind

theorem sparesBraces_of_none {r : Run} (h : r.fault? = none) : r.SparesBraces := by
  intro fault hfault
  rw [h] at hfault
  exact absurd hfault (by simp only [reduceCtorEq, not_false_eq_true])

theorem sparesBraces_done : (Run.done m).SparesBraces := sparesBraces_of_none rfl

theorem sparesBraces_push (command : String) (value : Value) :
    (Run.ofChange m command (m.push? m.settings value)).SparesBraces := by
  unfold State.push?
  split
  · exact sparesBraces_done
  · exact sparesBraces_of_kind (by decide) (by decide)

theorem sparesBraces_pushCaptured (lexeme : String) (body : List String) :
    (m.pushCaptured lexeme body).SparesBraces := by
  unfold pushCaptured State.pushProcedure?
  split
  · exact sparesBraces_done
  · exact sparesBraces_of_kind (by decide) (by decide)

theorem sparesBraces_number (lexeme : String) :
    (Run.ofChange m lexeme
      ((readNumber lexeme).bind fun x => m.push? m.settings (.real x))).SparesBraces := by
  unfold readNumber
  split
  · exact sparesBraces_of_kind (by decide) (by decide)
  · split
    · exact sparesBraces_push lexeme _
    · exact sparesBraces_of_kind (by decide) (by decide)

theorem sparesBraces_closeArray : m.closeArray.SparesBraces := by
  unfold closeArray
  split
  · exact sparesBraces_of_kind (by decide) (by decide)
  · dsimp only
    split
    · exact sparesBraces_of_kind (by decide) (by decide)
    · split
      · exact sparesBraces_done
      · exact sparesBraces_of_kind (by decide) (by decide)

/-- A lexeme that is no name is reported as it is. -/
theorem commandName_of_not_isName {lexeme : String} (h : isName lexeme = false) :
    commandName lexeme = lexeme := by
  unfold commandName
  split
  · next rest hlist =>
      have hletter : isLetter 'p' = true := by
        rw [isLetter, show Char.isAlpha 'p' = true from rfl, Bool.true_or]
      rw [isName, hlist, List.head?_cons, Option.any_some, hletter] at h
      exact absurd h (by decide)
  · rfl

/-- An unknown lexeme is no fault about braces unless it is a closing brace. -/
theorem sparesBraces_stepPlain {lexeme : String} (hname : isName lexeme = false)
    (hclose : lexeme ≠ closeBrace) : (m.stepPlain lexeme).SparesBraces := by
  unfold stepPlain
  split
  · exact sparesBraces_failed id
  · split
    · exact sparesBraces_push lexeme _
    · split
      · exact sparesBraces_number lexeme
      · split
        · exact sparesBraces_done
        · split
          · exact sparesBraces_closeArray
          · -- It is reported under its own name, which is not that of a closing brace.
            refine sparesBraces_failed fun hbrace => ?_
            rcases hbrace with ⟨_, hcommand⟩ | ⟨hkind, _⟩
            · exact hclose ((commandName_of_not_isName hname).symm.trans
                (Option.some.inj hcommand))
            · exact absurd hkind (by simp only [reduceCtorEq, not_false_eq_true])

theorem sparesBraces_beginLexeme {lexeme : String} (hclose : lexeme ≠ closeBrace) :
    (m.beginLexeme lexeme).run.SparesBraces := by
  unfold beginLexeme
  cases hname : isName lexeme with
  | true =>
      simp only [if_true, beginName]
      split
      · exact sparesBraces_done
      · exact sparesBraces_of_kind (by decide) (by decide)
  | false => exact sparesBraces_stepPlain hname hclose

theorem sparesBraces_findFont : m.findFont.SparesBraces := by
  have hbare := Operator.findfont.bare_name
  unfold findFont
  split
  · exact sparesBraces_of_bare hbare
  · dsimp only
    split
    · exact sparesBraces_failed id
    · split
      · exact sparesBraces_failed id
      · exact sparesBraces_of_bare hbare
      · exact sparesBraces_of_none rfl

/-- Operators report no faults about braces. -/
theorem sparesBraces_beginOperator (op : Operator) : (m.beginOperator op).run.SparesBraces := by
  cases op with
  | primitive p =>
      change (m.perform p).SparesBraces
      rw [perform_eq]
      split
      · exact sparesBraces_of_none rfl
      · exact sparesBraces_of_bare (Operator.primitive p).bare_name
  | findfont => exact sparesBraces_findFont
  | conditional =>
      change m.beginConditional.run.SparesBraces
      unfold beginConditional
      split
      · exact sparesBraces_of_bare Operator.conditional.bare_name
      · exact sparesBraces_done
      · exact sparesBraces_done

/-- Executing a value reports no faults about braces. -/
theorem sparesBraces_beginValue (name : String) (value : Value) :
    (m.beginValue name value).run.SparesBraces := by
  cases value with
  | operator op => exact sparesBraces_beginOperator op
  | procedure identity body =>
      simp only [beginValue, enter]
      split
      · exact sparesBraces_of_none rfl
      · exact sparesBraces_of_kind (by decide) (by decide)
  | literal identity inner => exact sparesBraces_push name inner
  | real x => exact sparesBraces_of_kind (by decide) (by decide)
  | name text => exact sparesBraces_of_kind (by decide) (by decide)
  | bool b => exact sparesBraces_of_kind (by decide) (by decide)
  | array identity items => exact sparesBraces_of_kind (by decide) (by decide)

end Machine

/-- What is left of a body is balanced, so running it has no faults about braces. -/
theorem Task.sparesBraces_perform_list (m : Machine) {lexemes : List String} (h : Code lexemes) :
    ((Task.run (.list lexemes)).perform m).run.SparesBraces := by
  cases lexemes with
  | nil => exact Machine.sparesBraces_done
  | cons lexeme rest =>
      simp only [perform, Supply.take]
      split
      · next hbegins =>
          rcases h.exists_capture hbegins with ⟨body, left, hcapture⟩
          simp only [Supply.capture, hcapture]
          exact Machine.sparesBraces_pushCaptured lexeme body
      · exact Machine.sparesBraces_beginLexeme h.ne_closeBrace

/-- Only reading the source has faults about braces. -/
theorem Task.sparesBraces_perform (m : Machine) {V : Value → Prop} {task : Task}
    (h : task.Sound V Code) (hsource : task ≠ .run .input) :
    (task.perform m).run.SparesBraces := by
  cases task with
  | run supply =>
      cases supply with
      | list lexemes => exact sparesBraces_perform_list m h
      | input => exact absurd rfl hsource
  | execute value name => exact Machine.sparesBraces_beginValue name value
  | leave => exact Machine.sparesBraces_done

/-- A step that brings about a fault about braces reads the source. -/
theorem Process.reads_source_of_isBrace {p : Process} {I : Machine → Prop} {V : Value → Prop}
    (hsound : p.Sound I V Code) (hnone : p.run.fault? = none) {fault : Fault}
    (hfault : p.step.run.fault? = some fault) (hbrace : fault.IsBrace) :
    ∃ rest, p.tasks = .run .input :: rest := by
  rcases p with ⟨tasks, r⟩
  cases tasks with
  | nil =>
      rw [show (⟨[], r⟩ : Process).step.run.fault? = none from hnone] at hfault
      exact absurd hfault (by simp only [reduceCtorEq, not_false_eq_true])
  | cons task rest =>
      rw [step_of_none hnone] at hfault
      -- All other tasks have other faults.
      refine Classical.byContradiction fun hsource => ?_
      have htask : task ≠ .run .input := fun h => hsource ⟨rest, by rw [h]⟩
      exact Task.sparesBraces_perform r.machine (hsound.tasks task List.mem_cons_self) htask
        fault hfault hbrace

/-- Every procedure that a program holds in any state that it passes through, on the
    operand stack, inside arrays or bound to a name, has a body of lexemes that lines
    deliver, in which no part from the beginning on closes more procedures than it
    opens, and which closes as many as it opens. What is left of a body while it runs,
    which is always inside a procedure, is balanced too. A step that ends in a fault
    about a brace, one that closes nothing or one that is not closed, is one that reads
    the source, outside all procedures and with nothing else left to do. The state that
    a run ends in is one of those it passes through. -/
theorem captured_code_balanced (settings : Settings) (source : Source) :
    let p := fun n => (Process.start (.start settings source) .input).after n
    (∀ n identity body, (p n).run.machine.Holds (.procedure identity body) →
      (∀ lexeme ∈ body, ∃ line, lexeme ∈ lexemes line) ∧
      (∀ initial, initial <+: body → initial.count closeBrace ≤ initial.count openBrace) ∧
      body.count openBrace = body.count closeBrace) ∧
    (∀ n lexemes rest, (p n).tasks = .run (.list lexemes) :: rest →
      0 < (p n).run.machine.depth ∧ Balanced lexemes) ∧
    (∀ n fault, (p n).run.fault? = none → (p (n + 1)).run.fault? = some fault → fault.IsBrace →
      (p n).tasks = [.run .input] ∧ (p n).run.machine.depth = 0) ∧
    ∃ n, p n = .finished (Machine.start settings source).runInput := by
  intro p
  have hsound : ∀ n, (p n).Sound (Machine.Upholds Value.HasCode)
      (Value.Throughout Value.HasCode) Code := by
    have hsupply : ∀ lexemes, Supply.input = .list lexemes → Code lexemes := nofun
    exact fun n => hasCode_upheld.sound_after settings source hsupply n
  have hnested : ∀ n, Nested (p n).run.machine.depth (p n).tasks :=
    fun n => nested_after rfl n
  refine ⟨?_, ?_, ?_, Process.reaches_runFrom _ .input⟩
  · intro n identity body hholds
    have hcode : Code body := (hsound n).machine.of_holds hholds
    exact ⟨hcode.isLexeme, balanced_iff.mp hcode.balanced⟩
  · intro n lexemes rest htasks
    have horder := hnested n
    rw [htasks] at horder
    have hcode : Code lexemes := (hsound n).tasks (.run (.list lexemes)) (by
      rw [htasks]
      exact List.mem_cons_self)
    exact ⟨horder.depth_pos_of_list, hcode.balanced⟩
  · intro n fault hnone hfault hbrace
    have hstep : p (n + 1) = (p n).step := Process.after_succ _ n
    rw [hstep] at hfault
    rcases (p n).reads_source_of_isBrace (hsound n) hnone hfault hbrace with ⟨rest, htasks⟩
    have horder := hnested n
    rw [htasks] at horder
    rcases horder.source_alone with ⟨hdepth, rfl⟩
    exact ⟨htasks, hdepth⟩

/-- Both faults do occur in a source. -/
example :
    ((Process.start (.start .standard (.text "\x7b \x7d \x7d")) .input).after 2).run.fault?
      = some (.report ⟨.unknownToken, some closeBrace, some 1, none⟩) ∧
    ((Process.start (.start .standard (.text "\x7b \x7b \x7d")) .input).after 1).run.fault?
      = some (.report
          ⟨.lexical, some openBrace, some 1, some "stream ended inside 1 open procedure(s)"⟩) := by
  decide +kernel

end PathScript
