import PathScript.Proofs.Holdings

/-!
# Names Can Be Invoked

Executing a value has a last resort: what is neither an operator nor a
procedure of some sort is refused. No program ever gets there. Whatever a name
is bound to can be invoked, since a definition wraps what cannot be in a
literal procedure, and a conditional looks at its operand before it takes it.

The wrapping goes one level deep and no deeper. What is wrapped cannot be
invoked, so invoking a literal procedure pushes a plain value, and never one
that would have to be invoked again. The property is one of all literal
procedures that there are, on the stack and inside arrays as well as bound to
names, as they can be loaded, gathered and bound again.

## Main definitions

* `Value.WrapsPlain`: A literal procedure that wraps what cannot be invoked.
* `Machine.Dispatch`: What executing a value comes to, unless it is refused.

## Theorems

* `wrapsPlain_upheld`: All literal procedures wrap what cannot be invoked.
* `Machine.dispatch_execute`: What can be invoked is not refused.
* `bindings_executable`: Whatever a program executes is not refused.
-/

namespace PathScript

/-- A value that, if it is a literal procedure, wraps one that cannot be
    invoked. -/
def Value.WrapsPlain : Value → Prop
  | .literal _ inner => inner.isExecutable = false
  | _ => True

/-- All literal procedures wrap what cannot be invoked, whatever is run. -/
theorem wrapsPlain_upheld : Upheld Value.WrapsPlain fun _ => True where
  name := fun _ => trivial
  bool := fun _ => trivial
  operator := fun _ => trivial
  real := fun _ _ => trivial
  negated := fun _ _ => trivial
  count := fun _ => trivial
  array := fun _ _ => trivial
  literal := fun _ _ h => h
  body := fun _ => trivial
  nil := trivial
  tail := fun _ _ => trivial
  capture := fun _ _ _ => ⟨fun _ => trivial, trivial⟩
  captureInput := fun _ _ _ => trivial

/-- What a name has built in can be invoked. -/
theorem isExecutable_builtin {key : String} {value : Value} (h : builtin? key = some value) :
    value.isExecutable = true := by
  rcases builtin_cases h with ⟨identity, b, rfl⟩ | ⟨op, rfl⟩
  · rfl
  · rfl

namespace Machine

/-- What executing a value comes to, unless it is refused: an operator is invoked, a
    procedure is called, and a literal procedure pushes a value that cannot be
    invoked. -/
inductive Dispatch (call : Caller) (name : String) (m : Machine) : Value → Run → Prop where
  | operator (op : Operator) :
      Dispatch call name m (.operator op) ((m.invoke call op).after (.invoked op))
  | procedure (identity : Identity) (body : List String) :
      Dispatch call name m (.procedure identity body) (call name body m)
  | literal (identity : Identity) {inner : Value} (h : inner.isExecutable = false) :
      Dispatch call name m (.literal identity inner)
        (.ofChange m name (m.push? m.settings inner))

/-- What can be invoked is not refused. -/
theorem dispatch_execute (call : Caller) (name : String) (m : Machine) {value : Value}
    (hexecutable : value.isExecutable = true) (hplain : value.WrapsPlain) :
    m.Dispatch call name value (m.execute call value name) := by
  cases value with
  | operator op => exact .operator op
  | procedure identity body => exact .procedure identity body
  | literal identity inner => exact .literal identity hplain
  | real x => exact absurd hexecutable Bool.false_ne_true
  | name text => exact absurd hexecutable Bool.false_ne_true
  | bool b => exact absurd hexecutable Bool.false_ne_true
  | array identity items => exact absurd hexecutable Bool.false_ne_true

/-- A conditional that holds executes what it is given. -/
theorem invoke_conditional_of_some {call : Caller} {m : Machine} {target : Value} {s : State}
    (h : m.takeCondition = .ok (some target, s)) :
    m.invoke call .conditional
      = ({ m with toState := s } : Machine).execute call target Operator.conditional.name := by
  have hrun : Action.takeCondition.run m.toState = .ok (some target) s := by
    rw [Action.run_takeCondition, h]
    rfl
  rw [invoke]
  split
  · next hc => rw [hrun] at hc; cases hc
  · next hs => rw [hrun] at hs; cases hs
  · next op s' hs =>
      rw [hrun] at hs
      cases hs
      rfl
  · next value s' hoperator hs =>
      rw [hrun] at hs
      cases hs
      cases target with
      | operator op => exact absurd rfl (hoperator op)
      | _ => rfl

variable {m : Machine} (hm : m.Upholds Value.WrapsPlain)
include hm

/-- What a name is bound to can be invoked. -/
theorem Upholds.isExecutable_lookup {name : String} {cell : Cell}
    (h : m.lookup? name = some cell) : cell.value.isExecutable = true := by
  rcases State.lookup_cases h with hmem | ⟨value, hvalue, rfl⟩
  · exact hm.executable _ hmem
  · exact isExecutable_builtin hvalue

theorem Upholds.dispatch_executeName (call : Caller) {name : String} {cell : Cell}
    (h : m.lookup? name = some cell) :
    m.Dispatch call name cell.value (m.executeName call name) := by
  have hplain := (wrapsPlain_upheld.throughout_lookup hm.definitions h).self
  unfold executeName
  rw [h]
  exact dispatch_execute call name m (hm.isExecutable_lookup h) hplain

theorem Upholds.dispatch_conditional (call : Caller) {target : Value} {s : State}
    (h : m.takeCondition = .ok (some target, s)) :
    Dispatch call Operator.conditional.name { m with toState := s } target
      (m.invoke call .conditional) := by
  have hplain := (wrapsPlain_upheld.invariant.condition hm h).2 target rfl
  rw [invoke_conditional_of_some h]
  rcases State.takeCondition_eq_ok_iff.mp h with
    ⟨value, object, b, other, rest, _, hexecutable, htarget, _⟩
  -- The operand was looked at before it was taken.
  have hvalue : target = value := by
    cases b with
    | true => exact Option.some.inj htarget
    | false => exact absurd htarget (by simp only [Bool.false_eq_true, if_false, reduceCtorEq,
        not_false_eq_true])
  exact dispatch_execute call _ _ (by rw [hvalue]; exact hexecutable) hplain.self

end Machine

/-- In every state that a program passes through from a fresh start, names are bound
    to what can be invoked, those the program has defined and those that are built in,
    and no literal procedure anywhere wraps a value that can be invoked. Hence neither
    executing a name nor a conditional whose operands are accepted ends in refusing the
    value: an operator is invoked, a procedure called, or a value pushed that cannot be
    invoked. The state that a run ends in is one of those it passes through. -/
theorem bindings_executable (settings : Settings) (source : Source) (supply : Supply) :
    (∀ n, let m := ((Process.start (.start settings source) supply).after n).run.machine
      (∀ entry ∈ m.definitions.entries, entry.2.value.isExecutable = true) ∧
      (∀ key value, builtin? key = some value → value.isExecutable = true) ∧
      (∀ identity inner, m.Holds (.literal identity inner) → inner.isExecutable = false) ∧
      (∀ key value, builtin? key = some value → ∀ identity inner,
        Value.OccursIn (.literal identity inner) value → inner.isExecutable = false) ∧
      (∀ call name cell, m.lookup? name = some cell →
        m.Dispatch call name cell.value (m.executeName call name)) ∧
      (∀ call target s, m.takeCondition = .ok (some target, s) →
        Machine.Dispatch call "if" { m with toState := s } target (m.invoke call .conditional))) ∧
    ∃ n, (Process.start (.start settings source) supply).after n
      = .finished ((Machine.start settings source).runFrom supply) := by
  refine ⟨fun n => ?_, Process.reaches_runFrom _ _⟩
  have hsupply : ∀ lexemes, supply = .list lexemes → True := fun _ _ => trivial
  have hm := (wrapsPlain_upheld.sound_after settings source hsupply n).machine
  exact ⟨hm.executable, fun _ _ => isExecutable_builtin,
    fun identity inner h => hm.of_holds h,
    fun key value hvalue identity inner h => wrapsPlain_upheld.throughout_builtin hvalue _ h,
    fun call name cell => hm.dispatch_executeName call,
    fun call target s => hm.dispatch_conditional call⟩

end PathScript
