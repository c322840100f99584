import PathScript.Proofs.Operators
import PathScript.Proofs.Process

/-!
# Failing Without a Trace

An operator that is refused has done nothing. Operands that do not fit, a
result that does not exist, a limit that is reached: whatever the reason, the
machine is as it was before, and all there is to see is the fault.

A primitive operator works in steps, and what a step has changed stays changed
when a later one objects. That nothing is changed is a matter of their order:
`Primitive.performs_steps` goes through the operators and finds in each that what
can object comes before what changes the state. Three commands are of another
kind.

A closing bracket forgets the open one before it looks at anything else, so
that much is lost if it fails. It also takes the operands above the bracket off
before it asks for room, and would lose them for lack of it. But room can be
lacking only if the operands below the bracket fill the stack up to its limit,
and then there are none above, at least on a stack that kept to the limit
before.

The conditional looks at its operands before it takes them, and passing over
font definitions begins by taking one. The first is refused without a trace,
and so is the second for want of its operand. If the marker is not found, the
operand is gone and the source has been read to its end.

## Main definitions

* `Fault.kind?`: The kind of a fault, if it is a report.

## Theorems

* `Machine.cleared_eq_of_no_room`: Without room there was nothing to take off.
* `Machine.closeArray_eq_failed`: How a closing bracket can fail.
* `Tokenizer.rest_skipTo_of_not_found`: A marker that is not found.
* `failed_operators_change_nothing`: What is left of a command that fails.
-/

namespace PathScript

/-- The kind of a fault, if it is a report. -/
def Fault.kind? : Fault → Option ErrorKind
  | .report r => some r.kind
  | _ => none

namespace Tokenizer

/-- Lines are passed over to the end of the source if none is the marker. -/
theorem rest_skipLines_of_not_found {marker : Option String} {line count : Nat}
    {unread : List RawLine} (h : (skipLines marker line count unread).found = .ok false) :
    (skipLines marker line count unread).rest = ⟨line + unread.length, [], []⟩ := by
  induction unread generalizing line count with
  | nil => rfl
  | cons raw unread ih =>
      cases raw with
      | error e => exact absurd h (by simp only [skipLines, reduceCtorEq, not_false_eq_true])
      | ok text =>
          unfold skipLines at h ⊢
          split at h
          · exact absurd (Except.ok.inj h) (by decide)
          · next hmarker =>
              rw [if_neg hmarker, ih h, List.length_cons, Nat.add_assoc, Nat.add_comm 1]

/-- A marker that is not found: the source has been read to its end. -/
theorem rest_skipTo_of_not_found {t : Tokenizer} {marker : Option String}
    (h : (t.skipTo marker).found = .ok false) :
    (t.skipTo marker).rest = ⟨t.line + t.unread.length, [], []⟩ :=
  rest_skipLines_of_not_found h

end Tokenizer

namespace State

/-- A conditional needs two operands. -/
theorem takeCondition_of_few {s : State} (h : s.operands.length < 2) :
    s.takeCondition = .error (.plain .stackUnderflow) := by
  unfold takeCondition
  split
  · next hoperands =>
      rw [hoperands, List.length_cons, List.length_cons] at h
      omega
  · rw [Complaint.operands, if_pos h]

/-- A conditional needs a truth value, and a value that can be invoked. -/
theorem takeCondition_of_types {s : State} {target condition : Cell} {rest : List Cell}
    (hoperands : s.operands = target :: condition :: rest)
    (h : (∀ b, condition.value ≠ .bool b) ∨ target.value.isExecutable = false) :
    s.takeCondition = .error (.plain .typeMismatch) := by
  unfold takeCondition
  rw [hoperands]
  split
  · next value object b other rest' heq =>
      simp only [List.cons.injEq] at heq
      rcases heq with ⟨rfl, rfl, _⟩
      rcases h with hcondition | htarget
      · exact absurd rfl (hcondition b)
      · rw [if_neg (by rw [htarget]; exact Bool.false_ne_true)]
  · rw [Complaint.operands, if_neg (by simp only [List.length_cons]; omega)]

end State

namespace Machine

/-- If there is no room below a bracket, there was nothing above it to take off, on
    a stack that kept to its limit. -/
theorem cleared_eq_of_no_room {m : Machine} {height : Nat} {marks : List Nat}
    (hlimit : m.settings.maxOperands = 0 ∨
      (m.operands.length : Int) ≤ max m.settings.maxOperands 0)
    (hheight : height ≤ m.operands.length)
    (hroom : ¬ (m.cleared height marks).hasRoom m.settings = true) :
    m.cleared height marks = { m with marks := marks } := by
  have hbelow : (m.cleared height marks).operands.length = height := by
    simp only [cleared, List.length_drop]
    omega
  simp only [State.hasRoom, underLimit, hbelow, Bool.or_eq_true, beq_iff_eq, decide_eq_true_eq,
    not_or, Int.not_lt] at hroom
  -- The limit is at most the height of the bracket, and the stack at most the limit.
  have hnone : m.operands.length - height = 0 := by omega
  simp only [cleared, hnone, List.drop_zero]

/-- How a closing bracket can fail: there is no open one, or the open one is
    forgotten and nothing else has changed. -/
theorem closeArray_eq_failed {m : Machine} {fault : Fault}
    (hlimit : m.settings.maxOperands = 0 ∨
      (m.operands.length : Int) ≤ max m.settings.maxOperands 0)
    (h : m.closeArray.fault? = some fault) :
    (m.marks = [] ∧ fault = m.fault "]" (.plain .unmatchedBracket) ∧ m.closeArray.machine = m) ∨
    ∃ height marks kind, m.marks = height :: marks ∧
      (kind = ErrorKind.stackUnderflow ∨ kind = ErrorKind.stackOverflow) ∧
      fault = m.fault "]" (.plain kind) ∧ m.closeArray.machine = { m with marks := marks } := by
  rcases hmarks : m.marks with _ | ⟨height, marks⟩
  · rw [closeArray_of_nil hmarks] at h ⊢
    exact Or.inl ⟨rfl, (Option.some.inj h).symm, rfl⟩
  · refine Or.inr ⟨height, marks, ?_⟩
    rcases Nat.lt_or_ge m.operands.length height with hlt | hle
    · rw [closeArray_of_lt hmarks hlt] at h ⊢
      exact ⟨.stackUnderflow, rfl, Or.inl rfl, (Option.some.inj h).symm, rfl⟩
    · rw [closeArray_of_le hmarks hle] at h ⊢
      by_cases hroom : (m.cleared height marks).hasRoom m.settings = true
      · rw [if_pos hroom] at h
        exact absurd h (by simp only [Run.done, reduceCtorEq, not_false_eq_true])
      · rw [if_neg hroom] at h ⊢
        exact ⟨.stackOverflow, rfl, Or.inr rfl, (Option.some.inj h).symm,
          cleared_eq_of_no_room hlimit hle hroom⟩

/-- A primitive operator that fails leaves the machine as it was, as its steps leave the
    state. -/
theorem machine_perform_of_fault {m : Machine} {p : Primitive} {fault : Fault}
    (h : (m.perform p).fault? = some fault) : (m.perform p).machine = m := by
  unfold perform at h ⊢
  split at h
  · exact absurd h (by simp only [reduceCtorEq, not_false_eq_true])
  · next c s hsteps => rw [Run.failed, Primitive.state_of_steps_error hsteps]

/-- A conditional that objects to its operands leaves them where they are. -/
theorem invoke_conditional_of_error {m : Machine} {c : Complaint} (call : Caller)
    (h : m.takeCondition = .error c) :
    m.invoke call .conditional = .failed m (m.fault Operator.conditional.name c) := by
  have hrun : Action.takeCondition.run m.toState = .error c m.toState := by
    rw [Action.run_takeCondition, h]
    rfl
  unfold invoke
  split
  · next hc =>
      rw [hrun] at hc
      cases hc
      rfl
  · next hok => rw [hrun] at hok; cases hok
  · next hok => rw [hrun] at hok; cases hok
  · next hok => rw [hrun] at hok; cases hok

/-- How passing over font definitions can fail with a report: for want of its
    operand, or at the end of the source. -/
theorem findFont_of_report {m : Machine} {fault : Fault} {kind : ErrorKind}
    (h : m.findFont.fault? = some fault) (hkind : fault.kind? = some kind) :
    (kind = .stackUnderflow ∧ m.findFont.machine = m) ∨
    (kind = .lexical ∧ ∃ key rest t, m.operands = key :: rest ∧ m.input = some t ∧
      m.findFont.machine = { m with
        operands := rest, input := some ⟨t.line + t.unread.length, [], []⟩ }) := by
  rcases hoperands : m.operands with _ | ⟨key, rest⟩
  · rw [findFont_of_nil hoperands] at h ⊢
    rw [← Option.some.inj h] at hkind
    exact Or.inl ⟨(Option.some.inj hkind).symm, rfl⟩
  · rw [findFont_of_cons hoperands] at h ⊢
    unfold skipFonts at h ⊢
    split at h
    · -- Without a source the fault is no report.
      rw [← Option.some.inj h] at hkind
      exact absurd hkind (by simp only [Fault.kind?, reduceCtorEq, not_false_eq_true])
    · next t hinput =>
        dsimp only at h ⊢
        split at h
        · rw [← Option.some.inj h] at hkind
          exact absurd hkind (by simp only [Fault.kind?, reduceCtorEq, not_false_eq_true])
        · next hfound =>
            rw [← Option.some.inj h] at hkind
            refine Or.inr ⟨(Option.some.inj hkind).symm, key, rest, t, rfl, hinput, ?_⟩
            simp only [Run.failed, Tokenizer.rest_skipTo_of_not_found hfound]
        · exact absurd h (by simp only [Run.after, Run.done, reduceCtorEq, not_false_eq_true])

end Machine

/-- What is left of a command that fails, on a machine whose operand stack keeps to
    its limit. Whichever step of a primitive operator objects, the steps before it have
    changed nothing, and so it is with the steps in which a conditional takes its
    operands. So every operator but the conditional and the one that passes over font
    definitions leaves the machine as it was. An open bracket does not fail. A closing
    bracket leaves the machine as it was if there is no open one, and has otherwise
    forgotten the last open one and nothing else. A conditional with too few operands,
    or with operands of the wrong type, leaves them. Passing over font definitions
    leaves the machine as it was for want of an operand; if the marker is not found,
    the operand is gone and the source has been read to its end. -/
theorem failed_operators_change_nothing (m : Machine) (call : Caller)
    (hlimit : m.settings.maxOperands = 0 ∨
      (m.operands.length : Int) ≤ max m.settings.maxOperands 0) :
    (∀ (p : Primitive) (c : Complaint) (s : State),
      (p.steps m.settings).run m.toState = .error c s → s = m.toState) ∧
    (∀ (c : Complaint) (s : State),
      Action.takeCondition.run m.toState = .error c s → s = m.toState) ∧
    (∀ (p : Primitive) (fault : Fault), (m.invoke call (.primitive p)).fault? = some fault →
      (m.invoke call (.primitive p)).machine = m) ∧
    (m.step call "[").fault? = none ∧
    (∀ fault, (m.step call "]").fault? = some fault →
      (m.marks = [] ∧ fault = m.fault "]" (.plain .unmatchedBracket) ∧
        (m.step call "]").machine = m) ∨
      ∃ height marks kind, m.marks = height :: marks ∧
        (kind = ErrorKind.stackUnderflow ∨ kind = ErrorKind.stackOverflow) ∧
        fault = m.fault "]" (.plain kind) ∧ (m.step call "]").machine = { m with marks := marks }) ∧
    (m.operands.length < 2 →
      m.invoke call .conditional = .failed m (m.fault "if" (.plain .stackUnderflow))) ∧
    (∀ target condition rest, m.operands = target :: condition :: rest →
      (∀ b, condition.value ≠ .bool b) ∨ target.value.isExecutable = false →
      m.invoke call .conditional = .failed m (m.fault "if" (.plain .typeMismatch))) ∧
    (∀ fault, (m.invoke call .findfont).fault? = some fault →
      fault.kind? = some .stackUnderflow → (m.invoke call .findfont).machine = m) ∧
    (∀ fault, (m.invoke call .findfont).fault? = some fault → fault.kind? = some .lexical →
      ∃ key rest t, m.operands = key :: rest ∧ m.input = some t ∧
        (m.invoke call .findfont).machine = { m with
          operands := rest, input := some ⟨t.line + t.unread.length, [], []⟩ }) := by
  have hprimitive : ∀ p, m.invoke call (.primitive p) = m.perform p := by
    intro p
    rw [Machine.invoke]
  have hfont : m.invoke call .findfont = m.findFont := by rw [Machine.invoke]
  refine ⟨?_, ?_, ?_, ?_, ?_, ?_, ?_, ?_, ?_⟩
  · intro p c s h
    exact Primitive.state_of_steps_error h
  · intro c s h
    exact (State.takeCondition_of_run_error h).2
  · intro p fault h
    rw [hprimitive] at h ⊢
    exact Machine.machine_perform_of_fault h
  · rw [Machine.step_openBracket]
    rfl
  · intro fault h
    rw [Machine.step_closeBracket] at h ⊢
    exact Machine.closeArray_eq_failed hlimit h
  · intro hfew
    exact Machine.invoke_conditional_of_error call (State.takeCondition_of_few hfew)
  · intro target condition rest hoperands htypes
    exact Machine.invoke_conditional_of_error call
      (State.takeCondition_of_types hoperands htypes)
  · intro fault h hkind
    rw [hfont] at h ⊢
    rcases Machine.findFont_of_report h hkind with ⟨_, hmachine⟩ | ⟨hlexical, _⟩
    · exact hmachine
    · exact absurd hlexical (by decide)
  · intro fault h hkind
    rw [hfont] at h ⊢
    rcases Machine.findFont_of_report h hkind with ⟨hunderflow, _⟩ | ⟨_, hdrained⟩
    · exact absurd hunderflow (by decide)
    · exact hdrained

/-- A full stack with a bracket opened at its top, two lines of source and no marker
    among them: a closing bracket finds no room, the operands cannot be rolled, and
    font definitions have no end. -/
theorem failed_operators_change_nothing_full_stack :
    let m : Machine :=
      { Machine.start { Settings.standard with maxOperands := 2 } (.text "") with
        operands := [.of (.name "a"), .of (.bool true)]
        marks := [2, 0]
        input := some ⟨0, [], [.ok "a\n", .ok "b"]⟩ }
    let call := callerAt m.allowance
    (m.operands.length : Int) ≤ max m.settings.maxOperands 0 ∧
    (m.invoke call (.primitive .roll)).fault? = some (m.fault "roll" (.plain .typeMismatch)) ∧
    (m.invoke call (.primitive .roll)).machine = m ∧
    (m.step call "]").fault? = some (m.fault "]" (.plain .stackOverflow)) ∧
    (m.step call "]").machine = { m with marks := [0] } ∧
    (m.invoke call .findfont).fault? = some (.report
      ⟨.lexical, some "findfont", some 2, some "stream ended before %%EndProlog"⟩) ∧
    (m.invoke call .findfont).machine = { m with
      operands := [.of (.bool true)], input := some ⟨2, [], []⟩ } := by
  intro m call
  have hlimit : (m.operands.length : Int) ≤ max m.settings.maxOperands 0 := by decide
  have hroll : (m.invoke call (.primitive .roll)).fault?
      = some (m.fault "roll" (.plain .typeMismatch)) := by
    rw [Machine.invoke]
    rfl
  have hclose : (m.step call "]").fault? = some (m.fault "]" (.plain .stackOverflow)) := by
    rw [Machine.step_closeBracket]
    rfl
  have hfont : (m.invoke call .findfont).fault? = some (.report
      ⟨.lexical, some "findfont", some 2, some "stream ended before %%EndProlog"⟩) := by
    rw [Machine.invoke]
    decide +kernel
  rcases failed_operators_change_nothing m call (Or.inr hlimit) with
    ⟨_, _, hprimitives, _, hbracket, _, _, _, hdrained⟩
  refine ⟨hlimit, hroll, hprimitives .roll _ hroll, hclose, ?_, hfont, ?_⟩
  · rcases hbracket _ hclose with ⟨hmarks, _⟩ | ⟨height, marks, kind, hmarks, _, _, hmachine⟩
    · exact absurd hmarks (List.cons_ne_nil _ _)
    · rw [hmachine, ← (List.cons.inj hmarks).2]
  · rcases hdrained _ hfont rfl with ⟨key, rest, t, hoperands, hinput, hmachine⟩
    rw [hmachine, ← (List.cons.inj hoperands).2, ← Option.some.inj hinput]
    rfl

end PathScript
