import PathScript.Proofs.Construction
import PathScript.Proofs.Restoration
import PathScript.Proofs.Sequencing

/-!
# How Long a Definition Lasts

A name stays bound to what it was defined as until it is defined again.

Which names a program defines cannot be told from its text. The operator that defines
can be reached under other names once it has been loaded, its own name can be given to
something else, and what runs may be inside procedures that are themselves defined on
the way. So the condition is about the steps that are taken: none of them performs that
operator with the name below the top of the stack. Every other step leaves the
definitions as they are, however it ends, and a definition of another name leaves this
one as it is. What is built in under the name does not matter, since a program's own
definitions are looked up first.

A value that cannot be invoked is bound as a literal procedure around it. Executing the
name then pushes the value itself, so that an array is the same array and not one like
it.

## Main definitions

* `Process.defining?`: The name that the next step defines.

## Theorems

* `Process.definitions_step`: What a step does to the definitions.
* `Process.lookup_step`, `Process.lookup_after`: A name that is not defined again.
* `Machine.perform_define`: What a definition of a plain value binds a name to.
* `Machine.step_literal`: What executing such a name does.
* `definitions_last`: Both for whole runs.
-/

namespace PathScript

/-- What a name is bound to depends on the definitions only. -/
theorem State.lookup_congr {s s' : State} (h : s'.definitions = s.definitions) (key : String) :
    s'.lookup? key = s.lookup? key := by
  rw [lookup?, lookup?, h]

/-- A name is bound to what it was last defined as, whatever it has built in. -/
theorem State.lookup_insert_self {s : State} {d : Dictionary} {key : String} {cell : Cell}
    (h : s.definitions = d.insert key cell) : s.lookup? key = some cell := by
  rw [lookup?, h, Dictionary.find?_insert_self]
  rfl

/-- Another name is bound to what it was bound to before. -/
theorem State.lookup_insert_of_ne {s s' : State} {key other : String} {cell : Cell}
    (h : s'.definitions = s.definitions.insert key cell) (hne : other ≠ key) :
    s'.lookup? other = s.lookup? other := by
  rw [lookup?, lookup?, h, Dictionary.find?_insert_of_ne _ _ _ _ hne]

/-- What machines do apart from performing operators leaves the definitions alone. -/
theorem definitions_invariant (d : Dictionary) :
    Invariant (fun _ _ => False) (fun m => m.definitions = d) (fun _ => True)
      (fun _ => True) where
  name := fun _ => trivial
  real := fun _ _ => trivial
  literal := fun _ => trivial
  procedure := fun _ => trivial
  lookup := fun _ _ => trivial
  nil := trivial
  tail := fun _ _ => trivial
  capture := fun _ _ _ => ⟨fun _ => trivial, trivial⟩
  captureInput := fun _ _ _ _ => trivial
  next := fun h _ => h
  readBody := fun h _ => h
  skip := fun h _ => h
  push := by
    intro m value s h _ hpush
    rcases State.push?_eq_ok_iff.mp hpush with ⟨_, rfl⟩
    exact h
  pushProcedure := by
    intro m body s h _ hpush
    rcases State.pushProcedure?_eq_ok_iff.mp hpush with ⟨_, rfl⟩
    exact h
  openArray := fun h => h
  closeArray := by
    intro m h
    rcases m.machine_closeArray with ⟨operands, marks, next, hmachine⟩
    rw [hmachine]
    exact h
  perform := fun _ hfalse _ => hfalse.elim
  dropOperand := fun h _ => h
  condition := by
    intro m target s h hcondition
    rcases State.takeCondition_eq_ok_iff.mp hcondition with ⟨_, _, _, _, rest, _, _, _, rfl⟩
    exact ⟨h, fun _ _ => trivial⟩
  enter := fun h _ => h
  leave := fun h => h

namespace Process

/-- The name that the next step defines, if it performs the operator that does: the one
    below the top of the stack. -/
def defining? (p : Process) : Option String :=
  match p.performing?, p.run.machine.operands with
  | some .define, _ :: ⟨.name key, _⟩ :: _ => some key
  | _, _ => none

/-- A step that performs the operator with a name below the top defines the name. -/
theorem defining_eq_some {p : Process} {cell : Cell} {key : String} {object : Option Identity}
    {rest : List Cell} (hop : p.performing? = some .define)
    (hoperands : p.run.machine.operands = cell :: ⟨.name key, object⟩ :: rest) :
    p.defining? = some key := by
  unfold defining?
  rw [hop, hoperands]

/-- What a step does to the definitions: nothing, or it defines a name. -/
theorem definitions_step (p : Process) :
    p.step.run.machine.definitions = p.run.machine.definitions ∨
      ∃ key cell, p.defining? = some key ∧
        p.step.run.machine.definitions = p.run.machine.definitions.insert key cell := by
  cases hop : p.performing? with
  | none =>
      have hsound : p.Sound (fun m => m.definitions = p.run.machine.definitions) (fun _ => True)
          (fun _ => True) := ⟨rfl, fun task _ => task.sound_of_true⟩
      -- No operator is performed, so there is nothing to guard against.
      refine Or.inl ((definitions_invariant _).sound_step hsound fun op hsome => ?_).machine
      rw [hop] at hsome
      cases hsome
  | some op =>
      rcases toState_step_of_performing hop with ⟨s, hperform, hstep⟩ | hstep
      · rw [hstep]
        -- All operators but one leave the definitions alone.
        cases Primitive.transfers_perform hperform with
        | provides _ hdefinitions _ _ => exact Or.inl hdefinitions
        | makes _ hdefinitions _ => exact Or.inl hdefinitions
        | binds hoperands hdefinitions _ =>
            exact Or.inr ⟨_, _, defining_eq_some hop hoperands, hdefinitions⟩
        | wrapsAgain hoperands _ hdefinitions _ =>
            exact Or.inr ⟨_, _, defining_eq_some hop hoperands, hdefinitions⟩
        | wraps hoperands _ hdefinitions _ =>
            exact Or.inr ⟨_, _, defining_eq_some hop hoperands, hdefinitions⟩
      · exact Or.inl (by rw [hstep])

/-- A step that does not define a name leaves it bound to what it was. -/
theorem lookup_step {p : Process} {key : String} (h : p.defining? ≠ some key) :
    p.step.run.machine.lookup? key = p.run.machine.lookup? key := by
  rcases p.definitions_step with hsame | ⟨other, cell, hother, hinsert⟩
  · exact State.lookup_congr hsame key
  · have hne : key ≠ other := by
      rintro rfl
      exact h hother
    exact State.lookup_insert_of_ne hinsert hne

/-- So do any number of steps. -/
theorem lookup_after {p : Process} {key : String} {n : Nat}
    (h : ∀ k < n, (p.after k).defining? ≠ some key) :
    (p.after n).run.machine.lookup? key = p.run.machine.lookup? key := by
  induction n with
  | zero => rfl
  | succ n ih =>
      rw [after_succ, lookup_step (h n (Nat.lt_succ_self n))]
      exact ih fun k hk => h k (Nat.lt_succ_of_lt hk)

end Process

namespace Machine

variable {m : Machine}

/-- Running lexemes leaves a name that is not defined on the way bound to what it was. -/
theorem lookup_runFrom {supply : Supply} {key : String}
    (h : ∀ n, ((Process.start m supply).after n).defining? ≠ some key) :
    (m.runFrom supply).machine.lookup? key = m.lookup? key := by
  rcases Process.reaches_runFrom m supply with ⟨n, hn⟩
  have hafter := Process.lookup_after fun k (_ : k < n) => h k
  rw [hn] at hafter
  exact hafter

/-- Running lexemes leaves the settings as they are. -/
theorem settings_runFrom (m : Machine) (supply : Supply) :
    (m.runFrom supply).machine.settings = m.settings := by
  cases supply with
  | list lexemes =>
      exact (sameLevel_runLexemes _ (callerAt_level _) lexemes m).settings_eq
  | input => exact (sameLevel_runInput m).settings_eq

/-- A definition of a value that cannot be invoked completes and binds the name to a
    literal procedure around the value. -/
theorem perform_define {cell : Cell} {key : String} {object : Option Identity}
    {rest : List Cell} (hoperands : m.operands = cell :: ⟨.name key, object⟩ :: rest)
    (hplain : cell.value.isExecutable = false) :
    (m.perform .define).fault? = none ∧ (m.perform .define).machine.settings = m.settings ∧
      ∃ identity, (m.perform .define).machine.lookup? key
        = some (.of (.literal identity cell.value)) := by
  have hperform := State.define_eq_ok_iff.mpr ⟨cell, key, object, rest, hoperands, rfl⟩
  rw [if_neg (Bool.eq_false_iff.mp hplain)] at hperform
  have hwrap : ∃ identity, (m.wrap cell).1 = .literal identity cell.value := by
    unfold State.wrap
    cases cell.object? with
    | some identity => exact ⟨identity, rfl⟩
    | none => exact ⟨m.nextIdentity, rfl⟩
  rcases hwrap with ⟨identity, hwrap⟩
  rw [perform_eq, show Primitive.define.perform m.settings m.toState = _ from hperform]
  refine ⟨rfl, rfl, identity, ?_⟩
  rw [← hwrap]
  exact State.lookup_insert_self rfl

/-- A name that begins with a letter does not begin a procedure. -/
theorem beginsProcedure_of_isName {name : String} (h : isName name = true) :
    beginsProcedure name = false := by
  unfold isName at h
  unfold beginsProcedure
  rcases hname : name.toList with _ | ⟨first, rest⟩
  · rfl
  · rw [hname, List.head?_cons, Option.any_some] at h
    have hbrace : first ≠ '\x7b' := by
      rintro rfl
      exact absurd h (by decide +kernel)
    rw [List.head?_cons]
    exact beq_false_of_ne fun hsome => hbrace (Option.some.inj hsome)

/-- Executing a name that is bound to a literal procedure pushes the value inside, if
    there is room, and does nothing else. -/
theorem step_literal {call : Caller} {name : String} {identity : Identity} {value : Value}
    (hname : isName name = true) (hlookup : m.lookup? name = some (.of (.literal identity value)))
    (hroom : m.hasRoom m.settings = true) :
    m.step call name = .done { m with toState := m.push value } := by
  rw [step_eq_ite, if_pos hname, executeName, hlookup]
  change Run.ofChange m name (m.push? m.settings value) = _
  rw [State.push?, if_pos hroom]
  rfl

end Machine

/-- A definition lasts until the name is defined again. If no step of a process defines a
    name, the name is bound to what it was bound to before, and so it is after a whole run
    of lexemes from a list or from the source, whether it completes or fails.

    Hence a definition can be relied on. When a name that begins with a letter has been
    defined as a value that cannot be invoked, and anything has been run to its end that
    does not define the name again, executing the name pushes that very value, with its
    identity if it is an array, and changes nothing else. It does not matter whether the
    name has something built in, nor whether it stands in a list or in the source. The
    operand stack must not have a limit, or what ran in between might have filled it. -/
theorem definitions_last :
    (∀ (p : Process) (key : String) (n : Nat), (∀ k < n, (p.after k).defining? ≠ some key) →
      (p.after n).run.machine.lookup? key = p.run.machine.lookup? key) ∧
    (∀ (m : Machine) (supply : Supply) (key : String),
      (∀ n, ((Process.start m supply).after n).defining? ≠ some key) →
      (m.runFrom supply).machine.lookup? key = m.lookup? key) ∧
    (∀ (m : Machine) (cell : Cell) (key : String) (object : Option Identity) (rest : List Cell)
        (supply : Supply),
      m.operands = cell :: ⟨.name key, object⟩ :: rest → cell.value.isExecutable = false →
      Machine.isName key = true → m.settings.maxOperands = 0 →
      let defined := m.runOperator (.primitive .define)
      let body := defined.machine.runFrom supply
      let pushed : Machine := { body.machine with toState := body.machine.push cell.value }
      (∀ n, ((Process.start defined.machine supply).after n).defining? ≠ some key) →
      body.fault? = none →
      defined.fault? = none ∧ body.machine.runList [key] = .done pushed ∧
        ∀ call, body.machine.accept call key = .done pushed) := by
  refine ⟨fun p key n => Process.lookup_after, fun m supply key => Machine.lookup_runFrom, ?_⟩
  intro m cell key object rest supply hoperands hplain hname hlimit defined body pushed hkept _
  have hdefined : defined = m.perform .define := Machine.runOperator_primitive m .define
  rcases Machine.perform_define hoperands hplain with ⟨hfault, hsettings, identity, hbound⟩
  rw [← hdefined] at hfault hsettings hbound
  -- The name is bound to what it was defined as, and there is room for one more operand.
  have hlookup : body.machine.lookup? key = some (.of (.literal identity cell.value)) :=
    (Machine.lookup_runFrom hkept).trans hbound
  have hroom : body.machine.hasRoom body.machine.settings = true := by
    rw [State.hasRoom, Machine.settings_runFrom, hsettings, hlimit]
    rfl
  have hbegins := Machine.beginsProcedure_of_isName hname
  have hstep : ∀ call, body.machine.step call key = .done pushed :=
    fun call => Machine.step_literal hname hlookup hroom
  refine ⟨hfault, ?_, fun call => ?_⟩
  · rw [Machine.runList, Machine.runLexemes_of_done hbegins (hstep _), Machine.runLexemes]
  · rw [Machine.accept, if_neg (Bool.eq_false_iff.mp hbegins), hstep]

/-- An array is bound to the name of an operator. In between, the operator that defines
    is given another name and its own name to a procedure that drops its operands, so
    that what looks like a second definition is none. -/
theorem definitions_last_shadowing :
    let cell := Cell.of (.array 7 [.real .one, .bool true])
    let m : Machine := { Machine.start Settings.standard (.text "") with
      operands := [cell, .of (.name "add"), .of (.bool false)], nextIdentity := 8 }
    let supply := Supply.list ["/d", "/def", "load", "def", "/x", "3", "d",
      "/def", openBrace, "pop", "pop", closeBrace, "d", "/add", "7", "def", "x"]
    let defined := m.runOperator (.primitive .define)
    let body := defined.machine.runFrom supply
    cell.value.isExecutable = false ∧ Machine.isName "add" = true ∧
    (∀ n, ((Process.start defined.machine supply).after n).defining? ≠ some "add") ∧
    body.fault? = none ∧ body.machine.operands.length = 2 ∧
    body.machine.runList ["add"]
      = .done { body.machine with operands := cell :: body.machine.operands } := by
  intro cell m supply defined body
  have hdefined : defined = m.perform .define := Machine.runOperator_primitive m .define
  have hend : let p := Process.start (m.perform .define).machine supply
      ((p.after 50).tasks.isEmpty = true ∧ (p.after 50).run.fault? = none ∧
        (p.after 50).run.machine.operands.length = 2) ∧
      ∀ k ≤ 50, (p.after k).defining? ≠ some "add" := by decide +kernel
  have hname : Machine.isName "add" = true := by decide +kernel
  rw [← hdefined] at hend
  rcases hend with ⟨⟨htasks, hnone, hlength⟩, hkept⟩
  have hrun : ((Process.start defined.machine supply).after 50).run = body :=
    (Process.runFrom_eq_of_tasks_nil (List.isEmpty_iff.mp htasks)).symm
  rw [hrun] at hnone hlength
  have hkept : ∀ n, ((Process.start defined.machine supply).after n).defining? ≠ some "add" :=
    Process.forall_after (P := fun p => p.defining? ≠ some "add") (List.isEmpty_iff.mp htasks)
      hkept
  have hpushed := definitions_last.2.2 m cell "add" none [.of (.bool false)] supply rfl rfl hname
    rfl hkept hnone
  exact ⟨rfl, hname, hkept, hnone, hlength, hpushed.2.1⟩

end PathScript
