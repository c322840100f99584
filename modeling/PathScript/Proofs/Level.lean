import PathScript.Interpreter

/-!
# Nesting Levels

A procedure raises the nesting level while it runs and puts it back when it is
done, whether it completed or was stopped by a fault. So nothing that a
machine does, however it ends, changes the level it is at, and nothing changes
its settings. Together the two decide how many levels of procedures may still
be entered, and that number is therefore the same before every lexeme of a
body as it was when the body was entered.

The argument follows the interpreter from the inside out, as the one about the
source does. What a lexeme does is level if invoking procedures is; running a
list of lexemes is level if each of them is; and invoking procedures is level
because the level is put back.

## Main definitions

* `Machine.SameLevel`: Two machines under the same settings at one level.
* `Caller.Level`: Invoking procedures comes back to the level it started from.

## Theorems

* `Machine.SameLevel.allowance_eq`: As many further levels are allowed.
* `Machine.sameLevel_runLexemes`: Running lexemes comes back to its level.
* `callerAt_level`: So does invoking procedures.
* `Machine.sameLevel_execute`: So does executing a value.
* `Machine.sameLevel_runInput`: So does running the source to its end.
-/

namespace PathScript

/-- Two machines under the same settings with as many procedures running. -/
structure Machine.SameLevel (m m' : Machine) : Prop where
  settings_eq : m'.settings = m.settings
  depth_eq : m'.depth = m.depth

/-- Invoking a procedure comes back to the level it started from. -/
def Caller.Level (call : Caller) : Prop :=
  ∀ (name : String) (body : List String) (m : Machine),
    m.SameLevel (call name body m).machine

namespace Machine

namespace SameLevel

theorem refl (m : Machine) : m.SameLevel m := ⟨rfl, rfl⟩

theorem trans {a b c : Machine} (hab : a.SameLevel b) (hbc : b.SameLevel c) : a.SameLevel c :=
  ⟨hbc.settings_eq.trans hab.settings_eq, hbc.depth_eq.trans hab.depth_eq⟩

/-- Machines at one level may enter as many further levels. -/
theorem allowance_eq {m m' : Machine} (h : m.SameLevel m') : m'.allowance = m.allowance := by
  simp only [allowance, h.settings_eq, h.depth_eq]

end SameLevel

theorem sameLevel_ofChange (m : Machine) (command : String) (r : Except Complaint State) :
    m.SameLevel (Run.ofChange m command r).machine := by
  cases r with
  | ok s => exact ⟨rfl, rfl⟩
  | error c => exact SameLevel.refl m

theorem sameLevel_pushCaptured (m : Machine) (lexeme : String) (body : List String) :
    m.SameLevel (m.pushCaptured lexeme body).machine :=
  sameLevel_ofChange m lexeme _

/-- If both parts of a run come back to their level, the whole does. -/
theorem sameLevel_andThen (m : Machine) (r : Run) (next : Machine → Run)
    (hr : m.SameLevel r.machine) (hnext : r.machine.SameLevel (next r.machine).machine) :
    m.SameLevel (r.andThen next).machine := by
  unfold Run.andThen
  split
  · exact hr
  · exact hr.trans hnext

theorem sameLevel_perform (m : Machine) (p : Primitive) : m.SameLevel (m.perform p).machine := by
  rw [perform_eq]
  split
  · exact ⟨rfl, rfl⟩
  · exact SameLevel.refl m

theorem sameLevel_findFont (m : Machine) : m.SameLevel m.findFont.machine := by
  unfold findFont
  split
  · exact SameLevel.refl m
  · dsimp only
    split
    · exact ⟨rfl, rfl⟩
    · split <;> exact ⟨rfl, rfl⟩

theorem sameLevel_closeArray (m : Machine) : m.SameLevel m.closeArray.machine := by
  unfold closeArray
  split
  · exact SameLevel.refl m
  · dsimp only
    split
    · exact ⟨rfl, rfl⟩
    · split <;> exact ⟨rfl, rfl⟩

theorem sameLevel_executeValue (call : Caller) (hcall : call.Level) (value : Value)
    (name : String) (m : Machine) : m.SameLevel (m.executeValue call value name).machine := by
  unfold executeValue
  split
  · exact hcall _ _ m
  · exact sameLevel_ofChange m _ _
  · exact SameLevel.refl m

/-- Invoking an operator comes back to its level if invoking procedures
    does. -/
theorem sameLevel_invoke (call : Caller) (hcall : call.Level) (op : Operator) (m : Machine) :
    m.SameLevel (m.invoke call op).machine := by
  fun_induction invoke call op m with
  | case1 m p => exact sameLevel_perform m p
  | case2 m => exact sameLevel_findFont m
  | case3 m command c s h => exact ⟨rfl, rfl⟩
  | case4 m s h => exact ⟨rfl, rfl⟩
  | case5 m op s h ih =>
      -- Taking the operands off changes the state only.
      exact ⟨ih.settings_eq, ih.depth_eq⟩
  | case6 m command value s hop h =>
      have hvalue := sameLevel_executeValue call hcall value command { m with toState := s }
      exact ⟨hvalue.settings_eq, hvalue.depth_eq⟩

/-- Executing what a name is bound to comes back to its level if invoking
    procedures does. -/
theorem sameLevel_execute (call : Caller) (hcall : call.Level) (value : Value) (name : String)
    (m : Machine) : m.SameLevel (m.execute call value name).machine := by
  unfold execute
  split
  · exact sameLevel_invoke call hcall _ m
  · exact sameLevel_executeValue call hcall _ _ m

theorem sameLevel_executeName (call : Caller) (hcall : call.Level) (name : String)
    (m : Machine) : m.SameLevel (m.executeName call name).machine := by
  unfold executeName
  split
  · exact sameLevel_execute call hcall _ _ m
  · exact SameLevel.refl m

/-- A lexeme comes back to its level if invoking procedures does. -/
theorem sameLevel_step (call : Caller) (hcall : call.Level) (lexeme : String) (m : Machine) :
    m.SameLevel (m.step call lexeme).machine := by
  unfold step
  split
  · exact SameLevel.refl m
  · split
    · exact sameLevel_ofChange m _ _
    · split
      · exact sameLevel_executeName call hcall lexeme m
      · split
        · exact sameLevel_ofChange m _ _
        · split
          · exact ⟨rfl, rfl⟩
          · split
            · exact sameLevel_closeArray m
            · exact SameLevel.refl m

/-- Running lexemes comes back to its level if invoking procedures does. -/
theorem sameLevel_runLexemes (call : Caller) (hcall : call.Level) (lexemes : List String)
    (m : Machine) : m.SameLevel (m.runLexemes call lexemes).machine := by
  fun_induction runLexemes call lexemes m with
  | case1 m => exact SameLevel.refl m
  | case2 m lexeme rest hbegins depth h => exact SameLevel.refl m
  | case3 m lexeme rest hbegins body left h ih =>
      exact sameLevel_andThen m _ _ (sameLevel_pushCaptured m lexeme body) (ih _)
  | case4 m lexeme rest hbegins ih =>
      exact sameLevel_andThen m _ _ (sameLevel_step call hcall lexeme m) (ih _)

end Machine

/-- Invoking a procedure at any level comes back to it. The level is put back
    whatever the body did; the induction is for the settings, which are those
    the body leaves. -/
theorem callerAt_level (level : Nat) : (callerAt level).Level := by
  induction level with
  | zero =>
      intro name body m
      exact Machine.SameLevel.refl m
  | succ level ih =>
      intro name body m
      have hbody := Machine.sameLevel_runLexemes (callerAt level) ih body
        { m with depth := m.depth + 1 }
      exact ⟨hbody.settings_eq, rfl⟩

namespace Machine

theorem sameLevel_nextLexeme (m : Machine) : m.SameLevel m.nextLexeme.2 := by
  unfold nextLexeme
  split
  · exact SameLevel.refl m
  · exact ⟨rfl, rfl⟩

theorem sameLevel_captureInput (m : Machine) (lexeme : String) :
    m.SameLevel (m.captureInput lexeme).machine := by
  unfold captureInput
  split
  · exact SameLevel.refl m
  · next t _ =>
    dsimp only
    split
    · exact ⟨rfl, rfl⟩
    · exact ⟨rfl, rfl⟩
    · next body _ =>
        have hpush := sameLevel_pushCaptured { m with input := some (Tokenizer.capture 0 t).2 }
          lexeme body
        exact ⟨hpush.settings_eq, hpush.depth_eq⟩

/-- A lexeme from the source comes back to its level. -/
theorem sameLevel_accept (call : Caller) (hcall : call.Level) (lexeme : String) (m : Machine) :
    m.SameLevel (m.accept call lexeme).machine := by
  unfold accept
  split
  · exact sameLevel_captureInput m lexeme
  · exact sameLevel_step call hcall lexeme m

/-- The machine that asking the source for a lexeme and acting on it leads
    to. -/
def Advance.machine : Advance → Machine
  | .ended m => m
  | .unreadable m _ => m
  | .accepted _ run => run.machine

/-- Asking the source for a lexeme and acting on it comes back to its level. -/
theorem sameLevel_advance (m : Machine) : m.SameLevel m.advance.machine := by
  have hnext := sameLevel_nextLexeme m
  unfold advance
  split
  · next fault rest h => rwa [h] at hnext
  · next rest h => rwa [h] at hnext
  · next lexeme rest h =>
      rw [h] at hnext
      exact hnext.trans (sameLevel_accept _ (callerAt_level _) lexeme rest)

/-- Running the source to its end, or up to a fault, comes back to its
    level. -/
theorem sameLevel_runInput (m : Machine) : m.SameLevel m.runInput.machine := by
  fun_induction runInput m with
  | case1 m rest h =>
      have hadvance := sameLevel_advance m
      rwa [h] at hadvance
  | case2 m rest fault h =>
      have hadvance := sameLevel_advance m
      rwa [h] at hadvance
  | case3 m lexeme run h fault hfault =>
      have hadvance := sameLevel_advance m
      rwa [h] at hadvance
  | case4 m lexeme run h hfault ih =>
      have hadvance := sameLevel_advance m
      rw [h] at hadvance
      exact hadvance.trans ih

end Machine

end PathScript
