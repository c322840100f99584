import PathScript.Proofs.Holdings

/-!
# How Values Come About

Arrays, procedures and literal procedures have an identity, which is the number of
the act that made them. There are four such acts. A closing bracket gathers an
array, an operator makes the array of a map, an open brace captures a procedure,
and a definition wraps a value that cannot be invoked. Everything else moves values
about, and copies share the identity of what they copy.

So whatever a process carries after a step it carried before, unless the step made
it, and a step makes one value at most. What it makes gets the next number, and the
number after it is the next one then. These are facts about every place in which a
value can be: on the stack, bound to a name, inside an array or a literal procedure,
or waiting to be executed.

A cell that remembers which object it holds bears one value more than it shows: the
literal procedure around the object, which a definition would bind a name to.

## Main definitions

* `Value.identity?`: The identity of a value that has one.
* `Cell.Bears`, `State.Bears`, `Process.Bears`: The values that are somewhere inside.
* `State.Provides`: The cells that an operator can put on the stack.
* `State.Transfers`: What an operator does to the values of a state.
* `Task.constructs`: Whether a task executes a closing bracket, an open brace or the
  operator that makes a map.
* `Outcome`: What something that is done does to values.

## Theorems

* `Value.nested_induction`: Induction on values and what is inside them.
* `Primitive.transfers_perform`: What operators do to values.
* `Task.outcome_perform`: What tasks do to values.
* `Process.outcome_step`: What a step does to values.
-/

namespace PathScript

namespace Value

/-- Induction on values, with what is known of the items of an array. -/
theorem nested_induction {motive : Value → Prop} (real : ∀ x, motive (.real x))
    (name : ∀ text, motive (.name text)) (bool : ∀ b, motive (.bool b))
    (array : ∀ identity items, (∀ item ∈ items, motive item) → motive (.array identity items))
    (procedure : ∀ identity body, motive (.procedure identity body))
    (operator : ∀ op, motive (.operator op))
    (literal : ∀ identity inner, motive inner → motive (.literal identity inner)) (v : Value) :
    motive v :=
  @Value.rec motive (fun items => ∀ item ∈ items, motive item) real name bool array procedure
    operator literal (List.forall_mem_nil _)
    (fun _ _ hhead htail => List.forall_mem_cons.mpr ⟨hhead, htail⟩) v

/-- The identity of a value that has one. -/
def identity? : Value → Option Identity
  | .array identity _ => some identity
  | .procedure identity _ => some identity
  | .literal identity _ => some identity
  | _ => none

/-- One of the literal procedures that names have built in. -/
def IsBuiltin (v : Value) : Prop := ∃ b, v = .literal (builtinIdentity b) (.bool b)

variable {v value : Value} {i : Identity}

/-- Nothing with an identity is inside a value without one. -/
theorem not_occursIn_of_none (hv : v.identity? = some i) (hvalue : value.identity? = none) :
    ¬ v.OccursIn value := by
  intro h
  cases h with
  | self =>
      rw [hv] at hvalue
      cases hvalue
  | item _ _ => cases hvalue
  | wrapped _ => cases hvalue

/-- What has an identity and is inside what a name has built in. -/
theorem isBuiltin_of_occursIn {key : String} (hv : v.identity? = some i)
    (hbuiltin : builtin? key = some value) (h : v.OccursIn value) : v.IsBuiltin := by
  -- Only the truth values are literal procedures.
  have hliteral : ∀ b, v.OccursIn (.literal (builtinIdentity b) (.bool b)) → v.IsBuiltin := by
    intro b hocc
    cases hocc with
    | self => exact ⟨b, rfl⟩
    | wrapped hinner => exact absurd hinner (not_occursIn_of_none hv rfl)
  unfold builtin? at hbuiltin
  split at hbuiltin
  · rw [← Option.some.inj hbuiltin] at h
    exact hliteral true h
  · split at hbuiltin
    · rw [← Option.some.inj hbuiltin] at h
      exact hliteral false h
    · rcases Option.map_eq_some_iff.mp hbuiltin with ⟨op, _, rfl⟩
      exact absurd h (not_occursIn_of_none hv rfl)

end Value

/-- The values inside a cell, and the literal procedure around the object that it holds
    if it remembers it. -/
def Cell.Bears (cell : Cell) (v : Value) : Prop :=
  v.OccursIn cell.value ∨ ∃ object, cell.object? = some object ∧ v = .literal object cell.value

/-- A cell with an object of its own bears what is inside its value. -/
theorem Cell.bears_of {value v : Value} : (Cell.of value).Bears v ↔ v.OccursIn value := by
  constructor
  · rintro (h | ⟨object, hobject, _⟩)
    · exact h
    · cases hobject
  · exact Or.inl

namespace State

/-- The values on the operand stack or bound to names, or somewhere inside. -/
def Bears (s : State) (v : Value) : Prop :=
  (∃ cell ∈ s.operands, cell.Bears v) ∨ ∃ entry ∈ s.definitions.entries, entry.2.Bears v

/-- What is held is borne. -/
theorem Holds.bears {s : State} {v : Value} (h : s.Holds v) : s.Bears v := by
  rcases h with ⟨cell, hmem, hv⟩ | ⟨entry, hmem, hv⟩
  · exact Or.inl ⟨cell, hmem, Or.inl hv⟩
  · exact Or.inr ⟨entry, hmem, Or.inl hv⟩

/-- A state with no operands and no definitions that another one lacks. -/
theorem Bears.of_subset {s s' : State} {v : Value} (h : s'.Bears v)
    (hoperands : s'.operands ⊆ s.operands) (hdefinitions : s'.definitions = s.definitions) :
    s.Bears v := by
  rcases h with ⟨cell, hmem, hcell⟩ | ⟨entry, hmem, hentry⟩
  · exact Or.inl ⟨cell, hoperands hmem, hcell⟩
  · rw [hdefinitions] at hmem
    exact Or.inr ⟨entry, hmem, hentry⟩

/-- The cells that an operator can put on the stack: those that were there and copies of
    them, what names are bound to, numbers and truth values. -/
inductive Provides (s : State) : Cell → Prop where
  | kept {cell : Cell} : cell ∈ s.operands → Provides s cell
  | copied {cell : Cell} : cell ∈ s.operands → Provides s (.of cell.value)
  | found {key : String} {cell : Cell} : s.lookup? key = some cell → Provides s cell
  | real (x : Binary64) : Provides s (.of (.real x))
  | bool (b : Bool) : Provides s (.of (.bool b))

/-- What an operator does to the values of a state: it provides for the operands, makes
    the array of a map, or binds a name to a value or to a literal procedure around it. -/
inductive Transfers (s s' : State) : Primitive → Prop where
  | provides {op : Primitive} : (∀ cell ∈ s'.operands, s.Provides cell) →
      s'.definitions = s.definitions → s'.nextIdentity = s.nextIdentity → op ≠ .matrix →
      Transfers s s' op
  | makes {numbers : List Binary64} :
      s'.operands = .of (.array s.nextIdentity (numbers.map .real)) :: s.operands →
      s'.definitions = s.definitions → s'.nextIdentity = s.nextIdentity + 1 →
      Transfers s s' .matrix
  | binds {cell : Cell} {key : String} {object : Option Identity} :
      s.operands = cell :: ⟨.name key, object⟩ :: s'.operands →
      s'.definitions = s.definitions.insert key cell → s'.nextIdentity = s.nextIdentity →
      Transfers s s' .define
  | wrapsAgain {cell : Cell} {key : String} {object : Option Identity} {identity : Identity} :
      s.operands = cell :: ⟨.name key, object⟩ :: s'.operands → cell.object? = some identity →
      s'.definitions = s.definitions.insert key (.of (.literal identity cell.value)) →
      s'.nextIdentity = s.nextIdentity → Transfers s s' .define
  | wraps {value : Value} {key : String} {object : Option Identity} :
      s.operands = .of value :: ⟨.name key, object⟩ :: s'.operands → value.isExecutable = false →
      s'.definitions = s.definitions.insert key (.of (.literal s.nextIdentity value)) →
      s'.nextIdentity = s.nextIdentity + 1 → Transfers s s' .define

variable {s s' : State} {op : Primitive}

/-- An operator that takes some operands off and puts nothing on. -/
theorem transfers_of_taken (taken : List Cell) (hoperands : s.operands = taken ++ s'.operands)
    (hdefinitions : s'.definitions = s.definitions) (hnext : s'.nextIdentity = s.nextIdentity)
    (hop : op ≠ .matrix) : s.Transfers s' op := by
  refine .provides (fun cell hmem => .kept ?_) hdefinitions hnext hop
  rw [hoperands]
  exact List.mem_append_right _ hmem

/-- An operator that puts one cell in the place of some operands. -/
theorem transfers_of_replaced {cell : Cell} {rest : List Cell} (taken : List Cell)
    (hoperands : s.operands = taken ++ rest) (hcell : s.Provides cell)
    (hoperands' : s'.operands = cell :: rest) (hdefinitions : s'.definitions = s.definitions)
    (hnext : s'.nextIdentity = s.nextIdentity) (hop : op ≠ .matrix) : s.Transfers s' op := by
  refine .provides (fun other hmem => ?_) hdefinitions hnext hop
  rw [hoperands'] at hmem
  rcases List.mem_cons.mp hmem with rfl | hmem
  · exact hcell
  · refine .kept ?_
    rw [hoperands]
    exact List.mem_append_right _ hmem

theorem transfers_onOperands {change : List Cell → Except Complaint (List Cell)}
    (hchange : ∀ result, change s.operands = .ok result → ∀ cell ∈ result, s.Provides cell)
    (h : s.onOperands change = .ok s') (hop : op ≠ .matrix) : s.Transfers s' op := by
  rcases onOperands_eq_ok_iff.mp h with ⟨operands, hoperands, rfl⟩
  exact .provides (hchange operands hoperands) rfl rfl hop

/-- A cell on top of operands that were there. -/
theorem provides_cons {cell : Cell} {rest : List Cell} (hcell : s.Provides cell)
    (hrest : rest ⊆ s.operands) : ∀ other ∈ cell :: rest, s.Provides other := by
  intro other hmem
  rcases List.mem_cons.mp hmem with rfl | hmem
  · exact hcell
  · exact .kept (hrest hmem)

theorem provides_arithmetic {operation : Binary64 → Binary64 → Binary64} {result : List Cell}
    (h : Operands.arithmetic operation s.operands = .ok result) :
    ∀ cell ∈ result, s.Provides cell := by
  rcases Operands.arithmetic_eq_ok_iff.mp h with ⟨x, y, _, _, rest, hoperands, _, rfl⟩
  refine provides_cons (.real _) ?_
  rw [hoperands]
  exact List.subset_cons_of_subset _ (List.subset_cons_self _ _)

theorem provides_negate {result : List Cell} (h : Operands.negate s.operands = .ok result) :
    ∀ cell ∈ result, s.Provides cell := by
  rcases Operands.negate_eq_ok_iff.mp h with ⟨x, _, rest, hoperands, rfl⟩
  refine provides_cons (.real _) ?_
  rw [hoperands]
  exact List.subset_cons_self _ _

theorem provides_sameness {answer : Bool → Bool} {result : List Cell}
    (h : Operands.sameness answer s.operands = .ok result) : ∀ cell ∈ result, s.Provides cell := by
  rcases Operands.sameness_eq_ok_iff.mp h with ⟨x, y, rest, hoperands, rfl⟩
  refine provides_cons (.bool _) ?_
  rw [hoperands]
  exact List.subset_cons_of_subset _ (List.subset_cons_self _ _)

theorem provides_comparison {relation : Binary64 → Binary64 → Bool} {result : List Cell}
    (h : Operands.comparison relation s.operands = .ok result) :
    ∀ cell ∈ result, s.Provides cell := by
  rcases Operands.comparison_eq_ok_iff.mp h with ⟨x, y, _, _, rest, hoperands, rfl⟩
  refine provides_cons (.bool _) ?_
  rw [hoperands]
  exact List.subset_cons_of_subset _ (List.subset_cons_self _ _)

theorem provides_complement {result : List Cell}
    (h : Operands.complement s.operands = .ok result) : ∀ cell ∈ result, s.Provides cell := by
  rcases Operands.complement_eq_ok_iff.mp h with ⟨b, _, rest, hoperands, rfl⟩
  refine provides_cons (.bool _) ?_
  rw [hoperands]
  exact List.subset_cons_self _ _

/-- Rearranging the stack provides what was there. -/
theorem provides_of_subset {result : List Cell} (h : result ⊆ s.operands) :
    ∀ cell ∈ result, s.Provides cell := fun _ hmem => .kept (h hmem)

/-- A definition binds a name to a value that can be invoked, or to a literal procedure
    around any other, which is a new one unless the cell remembers its object. -/
theorem transfers_define (h : s.define = .ok s') : s.Transfers s' .define := by
  rcases define_eq_ok_iff.mp h with ⟨⟨value, object?⟩, key, object, rest, hoperands, rfl⟩
  cases hexecutable : value.isExecutable with
  | true =>
      simp only [if_true]
      exact .binds hoperands rfl rfl
  | false =>
      simp only [Bool.false_eq_true, if_false]
      cases object? with
      | some identity => exact .wrapsAgain hoperands rfl rfl rfl
      | none => exact .wraps hoperands hexecutable rfl rfl

end State

/-- What operators do to values. -/
theorem Primitive.transfers_perform {limits : Settings} {op : Primitive} {s s' : State}
    (h : op.perform limits s = .ok s') : s.Transfers s' op := by
  cases op with
  | setgray =>
      rcases State.dropGray_eq_ok_iff.mp h with ⟨_, _, _, hoperands, rfl⟩
      exact State.transfers_of_taken [_] hoperands rfl rfl nofun
  | setrgbcolor =>
      rcases State.dropColor_eq_ok_iff.mp h with ⟨_, _, _, _, _, _, _, hoperands, rfl⟩
      exact State.transfers_of_taken [_, _, _] hoperands rfl rfl nofun
  | closepath =>
      rw [← Except.ok.inj h]
      unfold State.closePath
      split
      · exact State.transfers_of_taken [] rfl rfl rfl nofun
      · exact State.transfers_of_taken [] rfl rfl rfl nofun
  | curveto =>
      rcases State.curveTo_eq_ok_iff.mp h with
        ⟨_, _, _, _, _, _, _, _, _, _, _, _, _, _, _, _, hoperands, _, _, _, rfl⟩
      exact State.transfers_of_taken [_, _, _, _, _, _] hoperands rfl rfl nofun
  | lineto =>
      rcases State.lineTo_eq_ok_iff.mp h with ⟨_, _, _, _, _, _, hoperands, _, rfl⟩
      exact State.transfers_of_taken [_, _] hoperands rfl rfl nofun
  | moveto =>
      rcases State.moveTo_eq_ok_iff.mp h with ⟨_, _, _, _, _, _, hoperands, _, rfl⟩
      exact State.transfers_of_taken [_, _] hoperands rfl rfl nofun
  | add | mul | sub =>
      exact State.transfers_onOperands (fun _ => State.provides_arithmetic) h nofun
  | div =>
      exact State.transfers_onOperands
        (fun _ hchange => State.provides_arithmetic (Operands.divide_eq_ok_iff.mp hchange).2) h
        nofun
  | neg => exact State.transfers_onOperands (fun _ => State.provides_negate) h nofun
  | eq | ne => exact State.transfers_onOperands (fun _ => State.provides_sameness) h nofun
  | ge | gt | le | lt =>
      exact State.transfers_onOperands (fun _ => State.provides_comparison) h nofun
  | not => exact State.transfers_onOperands (fun _ => State.provides_complement) h nofun
  | exch =>
      exact State.transfers_onOperands
        (fun _ hchange => State.provides_of_subset (Operands.subset_of_exchange hchange)) h nofun
  | pop =>
      exact State.transfers_onOperands
        (fun _ hchange => State.provides_of_subset (Operands.subset_of_drop hchange)) h nofun
  | roll =>
      exact State.transfers_onOperands
        (fun _ hchange => State.provides_of_subset (Operands.subset_of_roll hchange)) h nofun
  | clear =>
      rw [← Except.ok.inj h]
      exact State.transfers_of_taken s.operands (List.append_nil _).symm rfl rfl nofun
  | count =>
      rcases State.push?_eq_ok_iff.mp h with ⟨_, rfl⟩
      exact State.transfers_of_replaced [] rfl (.real _) rfl rfl rfl nofun
  | dup =>
      rcases State.duplicate_eq_ok_iff.mp h with ⟨cell, rest, hoperands, _, rfl⟩
      have hcell : cell ∈ s.operands := by
        rw [hoperands]
        exact List.mem_cons_self
      exact State.transfers_of_replaced [] rfl (.copied hcell) rfl rfl rfl nofun
  | concat =>
      rcases State.concatenate_eq_ok_iff.mp h with ⟨_, _, _, _, _, _, hoperands, _, _, _, rfl⟩
      exact State.transfers_of_taken [_] hoperands rfl rfl nofun
  | matrix =>
      rcases State.pushIdentity_eq_ok_iff.mp h with ⟨_, rfl⟩
      exact .makes rfl rfl rfl
  | grestore =>
      rcases State.restore_eq_ok_iff.mp h with ⟨_, _, _, rfl⟩
      exact State.transfers_of_taken [] rfl rfl rfl nofun
  | gsave =>
      rcases State.save_eq_ok_iff.mp h with ⟨_, rfl⟩
      exact State.transfers_of_taken [] rfl rfl rfl nofun
  | setlinecap =>
      rcases State.setLineCap_eq_ok_iff.mp h with ⟨_, _, _, _, hoperands, _, rfl⟩
      exact State.transfers_of_taken [_] hoperands rfl rfl nofun
  | setlinejoin =>
      rcases State.setLineJoin_eq_ok_iff.mp h with ⟨_, _, _, _, hoperands, _, rfl⟩
      exact State.transfers_of_taken [_] hoperands rfl rfl nofun
  | setlinewidth =>
      rcases State.setLineWidth_eq_ok_iff.mp h with ⟨_, _, _, hoperands, rfl⟩
      exact State.transfers_of_taken [_] hoperands rfl rfl nofun
  | setmiterlimit =>
      rcases State.setMiterLimit_eq_ok_iff.mp h with ⟨_, _, _, hoperands, _, rfl⟩
      exact State.transfers_of_taken [_] hoperands rfl rfl nofun
  | define => exact State.transfers_define h
  | load =>
      rcases State.load_eq_ok_iff.mp h with ⟨_, _, _, _, hoperands, hlookup, rfl⟩
      exact State.transfers_of_replaced [_] hoperands (.found hlookup) rfl rfl rfl nofun
  | newpath | clip | eofill | fill | stroke | length | bind =>
      rw [← Except.ok.inj h]
      exact State.transfers_of_taken [] rfl rfl rfl nofun

/-- Whether a lexeme gathers an array or begins a procedure. -/
def Machine.constructs (lexeme : String) : Bool :=
  lexeme.toList.head? == some ']' || beginsProcedure lexeme

namespace Task

/-- The values inside one that waits to be executed. -/
def Bears (v : Value) : Task → Prop
  | .execute value _ => v.OccursIn value
  | _ => False

/-- Whether a task executes a closing bracket, an open brace or the operator that makes
    a map. -/
def constructs (m : Machine) : Task → Bool
  | .run supply =>
      match supply.take m with
      | .lexeme text _ _ => Machine.constructs text
      | _ => false
  | .execute (.operator (.primitive op)) _ => op == .matrix
  | _ => false

end Task

namespace Process

/-- The values on the operand stack, bound to names or waiting to be executed, or
    somewhere inside. -/
def Bears (p : Process) (v : Value) : Prop :=
  p.run.machine.Bears v ∨ ∃ task ∈ p.tasks, task.Bears v

/-- Whether the next step executes a closing bracket, an open brace or the operator that
    makes a map. -/
def constructing (p : Process) : Bool :=
  match p.run.fault?, p.tasks with
  | none, task :: _ => task.constructs p.run.machine
  | _, _ => false

theorem bears_finished {r : Run} {v : Value} (h : (finished r).Bears v) : r.machine.Bears v := by
  rcases h with h | ⟨task, hmem, _⟩
  · exact h
  · exact absurd hmem List.not_mem_nil

end Process

/-- What comes of something done to values, from what was there before it and the next
    identity then. Either no value is made, or one that gets the identity. That is what
    is on top of the stack where something was to be constructed, and a literal procedure
    elsewhere. -/
inductive Outcome (before : Value → Prop) (next : Identity) (constructing : Bool) (q : Process) :
    Prop where
  | moves : (constructing = true → q.run.fault? ≠ none) → q.run.machine.nextIdentity = next →
      (∀ {v : Value} {i : Identity}, v.identity? = some i → q.Bears v → before v ∨ v.IsBuiltin) →
      Outcome before next constructing q
  | makes (v : Value) : v.identity? = some next → q.run.machine.nextIdentity = next + 1 →
      (∀ {w : Value} {i : Identity}, w.identity? = some i → q.Bears w → before w ∨ w = v) →
      (constructing = true → q.run.fault? = none ∧ q.run.machine.operands.head? = some (.of v)) →
      (constructing = false → ∃ inner, v = .literal next inner) →
      Outcome before next constructing q

namespace Outcome

variable {before : Value → Prop} {next : Identity} {constructing : Bool} {q : Process}

/-- The same with more tasks to do, if they bear nothing that was not there. -/
theorem withTasks {before' : Value → Prop} {q' : Process} (h : Outcome before next constructing q)
    (hbefore : ∀ v, before v → before' v) (hmachine : q'.run.machine = q.run.machine)
    (hfault : q'.run.fault? = q.run.fault?)
    (htasks : ∀ task ∈ q'.tasks, task ∈ q.tasks ∨ ∀ v, task.Bears v → before' v) :
    Outcome before' next constructing q' := by
  have hbears : ∀ v, q'.Bears v → q.Bears v ∨ before' v := by
    rintro v (hv | ⟨task, hmem, hv⟩)
    · rw [hmachine] at hv
      exact Or.inl (Or.inl hv)
    · rcases htasks task hmem with hold | hnew
      · exact Or.inl (Or.inr ⟨task, hold, hv⟩)
      · exact Or.inr (hnew v hv)
  cases h with
  | moves hfaulty hnext hmoved =>
      rw [← hfault] at hfaulty
      rw [← hmachine] at hnext
      refine .moves hfaulty hnext fun {v i} hi hv => ?_
      rcases hbears v hv with hq | hnew
      · exact (hmoved hi hq).imp_left (hbefore v)
      · exact Or.inl hnew
  | makes v hi hnext hmade htop hliteral =>
      rw [← hfault, ← hmachine] at htop
      rw [← hmachine] at hnext
      refine .makes v hi hnext (fun {w j} hj hw => ?_) htop hliteral
      rcases hbears w hw with hq | hnew
      · exact (hmade hj hq).imp_left (hbefore w)
      · exact Or.inl hnew

/-- A run that moves values only, where nothing was to be constructed. -/
theorem of_moved {r : Run} (hnext : r.machine.nextIdentity = next)
    (hbears : ∀ v, r.machine.Bears v → before v) : Outcome before next false (.finished r) :=
  .moves nofun hnext fun {v _} _ hv => Or.inl (hbears v (Process.bears_finished hv))

/-- A failure that moves values only. -/
theorem of_stopped {m : Machine} {f : Fault} (hnext : m.nextIdentity = next)
    (hbears : ∀ v, m.Bears v → before v) :
    Outcome before next constructing (.finished (.failed m f)) :=
  .moves (fun _ => nofun) hnext fun {v _} _ hv => Or.inl (hbears v (Process.bears_finished hv))

/-- A failure that leaves the values as they were. -/
theorem of_failed {m : Machine} (f : Fault) :
    Outcome m.Bears m.nextIdentity constructing (.finished (.failed m f)) :=
  of_stopped rfl fun _ hv => hv

/-- A new value on top of operands that were there. -/
theorem of_pushed {r : Run} {v : Value} (operands : List Cell) (hfault : r.fault? = none)
    (hv : v.identity? = some next) (hnext : r.machine.nextIdentity = next + 1)
    (hoperands : r.machine.operands = .of v :: operands)
    (hinside : ∀ {w : Value} {i : Identity}, w.identity? = some i → w.OccursIn v →
      before w ∨ w = v)
    (hbelow : ∀ w, State.Bears { r.machine.toState with operands := operands } w → before w) :
    Outcome before next true (.finished r) := by
  refine .makes v hv hnext (fun {w i} hi hw => ?_) (fun _ => ⟨hfault, ?_⟩) nofun
  · rcases Process.bears_finished hw with ⟨cell, hmem, hcell⟩ | hentry
    · rw [hoperands] at hmem
      rcases List.mem_cons.mp hmem with rfl | hmem
      · exact hinside hi (Cell.bears_of.mp hcell)
      · exact Or.inl (hbelow w (Or.inl ⟨cell, hmem, hcell⟩))
    · exact Or.inl (hbelow w (Or.inr hentry))
  · change r.machine.operands.head? = some (.of v)
    rw [hoperands]
    rfl

end Outcome

namespace State

variable {s s' : State} {v : Value} {i : Identity}

/-- What a name is bound to was there or is built in. -/
theorem bears_of_lookup {key : String} {cell : Cell} (hi : v.identity? = some i)
    (hlookup : s.lookup? key = some cell) (h : cell.Bears v) : s.Bears v ∨ v.IsBuiltin := by
  rcases lookup_cases hlookup with hmem | ⟨value, hbuiltin, rfl⟩
  · exact Or.inl (Or.inr ⟨_, hmem, h⟩)
  · exact Or.inr (Value.isBuiltin_of_occursIn hi hbuiltin (Cell.bears_of.mp h))

theorem Provides.bears {cell : Cell} (hcell : s.Provides cell) (hi : v.identity? = some i)
    (h : cell.Bears v) : s.Bears v ∨ v.IsBuiltin := by
  cases hcell with
  | kept hmem => exact Or.inl (Or.inl ⟨cell, hmem, h⟩)
  | copied hmem => exact Or.inl (Or.inl ⟨_, hmem, Or.inl (Cell.bears_of.mp h)⟩)
  | found hlookup => exact bears_of_lookup hi hlookup h
  | real x => exact absurd (Cell.bears_of.mp h) (Value.not_occursIn_of_none hi rfl)
  | bool b => exact absurd (Cell.bears_of.mp h) (Value.not_occursIn_of_none hi rfl)

/-- After a definition: what the new cell bears, and what was there. -/
theorem bears_of_inserted {key : String} {cell other : Cell} {object : Option Identity}
    (hoperands : s.operands = cell :: ⟨.name key, object⟩ :: s'.operands)
    (hdefinitions : s'.definitions = s.definitions.insert key other) (h : s'.Bears v) :
    other.Bears v ∨ s.Bears v := by
  rcases h with ⟨found, hmem, hfound⟩ | ⟨entry, hmem, hentry⟩
  · refine Or.inr (Or.inl ⟨found, ?_, hfound⟩)
    rw [hoperands]
    exact List.mem_cons_of_mem _ (List.mem_cons_of_mem _ hmem)
  · rw [hdefinitions] at hmem
    rcases Dictionary.mem_entries_insert hmem with rfl | hmem
    · exact Or.inl hentry
    · exact Or.inr (Or.inr ⟨entry, hmem, hentry⟩)

/-- The value inside a literal procedure that a definition makes was there. -/
theorem bears_of_wrapped {cell : Cell} {identity : Identity} (hcell : cell ∈ s.operands)
    (h : (Cell.of (.literal identity cell.value)).Bears v) :
    s.Bears v ∨ v = .literal identity cell.value := by
  cases Cell.bears_of.mp h with
  | self => exact Or.inr rfl
  | wrapped hinner => exact Or.inl (Or.inl ⟨cell, hcell, Or.inl hinner⟩)

end State

namespace Machine

variable {m : Machine}

/-- The outcome of an operator that completes. -/
theorem outcome_of_transfers {op : Primitive} {s : State} (h : m.toState.Transfers s op)
    (events : List Event) : Outcome m.Bears m.nextIdentity (op == .matrix)
      (.finished ⟨{ m with toState := s }, none, events⟩) := by
  cases h with
  | provides hoperands hdefinitions hnext hop =>
      -- Whatever is on the stack now is provided for, and names are bound as before.
      have hfalse : (op == .matrix) = false := beq_false_of_ne hop
      rw [hfalse]
      refine .moves nofun hnext fun {v i} hi hv => ?_
      rcases Process.bears_finished hv with ⟨cell, hmem, hcell⟩ | ⟨entry, hmem, hentry⟩
      · exact (hoperands cell hmem).bears hi hcell
      · simp only [hdefinitions] at hmem
        exact Or.inl (Or.inr ⟨entry, hmem, hentry⟩)
  | @makes numbers hoperands hdefinitions hnext =>
      refine .of_pushed (v := .array m.nextIdentity (numbers.map .real)) m.operands rfl rfl hnext
        hoperands (fun {w i} hi hw => ?_) fun w hw => ?_
      · -- The items are numbers.
        cases hw with
        | self => exact Or.inr rfl
        | item hmem hitem =>
            rcases List.mem_map.mp hmem with ⟨x, _, rfl⟩
            exact absurd hitem (Value.not_occursIn_of_none hi rfl)
      · exact State.Bears.of_subset hw (List.Subset.refl _) hdefinitions
  | @binds cell key object hoperands hdefinitions hnext =>
      -- The cell itself is bound, and it was an operand.
      refine .of_moved hnext fun v hv => ?_
      rcases State.bears_of_inserted hoperands hdefinitions hv with hcell | hold
      · refine Or.inl ⟨cell, ?_, hcell⟩
        rw [hoperands]
        exact List.mem_cons_self
      · exact hold
  | @wrapsAgain cell key object identity hoperands hobject hdefinitions hnext =>
      have hmem : cell ∈ m.operands := by
        rw [hoperands]
        exact List.mem_cons_self
      -- A cell that remembers its object bears the literal procedure around it already.
      refine .of_moved hnext fun v hv => ?_
      rcases State.bears_of_inserted hoperands hdefinitions hv with hcell | hold
      · rcases State.bears_of_wrapped hmem hcell with hinner | hself
        · exact hinner
        · exact Or.inl ⟨cell, hmem, Or.inr ⟨identity, hobject, hself⟩⟩
      · exact hold
  | @wraps value key object hoperands hexecutable hdefinitions hnext =>
      have hmem : Cell.of value ∈ m.operands := by
        rw [hoperands]
        exact List.mem_cons_self
      -- Otherwise the literal procedure is new, and only what is inside was there.
      refine .makes (.literal m.nextIdentity value) rfl hnext (fun {w i} _ hw => ?_) nofun
        fun _ => ⟨value, rfl⟩
      rcases State.bears_of_inserted hoperands hdefinitions (Process.bears_finished hw) with
        hcell | hold
      · exact State.bears_of_wrapped hmem hcell
      · exact Or.inl hold

theorem outcome_perform (op : Primitive) :
    Outcome m.Bears m.nextIdentity (op == .matrix) (.finished (m.perform op)) := by
  rw [perform_eq]
  split
  · next s hperform => exact outcome_of_transfers (Primitive.transfers_perform hperform) _
  · exact .of_failed _

/-- Passing over font definitions takes an operand at most. -/
theorem outcome_findFont : Outcome m.Bears m.nextIdentity false (.finished m.findFont) := by
  rcases hoperands : m.operands with _ | ⟨cell, rest⟩
  · rw [findFont_of_nil hoperands]
    exact .of_failed _
  · have hrest : ∀ v, State.Bears { m.toState with operands := rest } v → m.Bears v := by
      refine fun v hv => State.Bears.of_subset hv ?_ rfl
      rw [hoperands]
      exact List.subset_cons_self _ _
    -- However reading the source goes, the rest of the operands is left.
    rw [findFont_of_cons hoperands]
    unfold skipFonts
    split
    · exact .of_moved rfl hrest
    · dsimp only
      split
      · exact .of_moved rfl hrest
      · exact .of_moved rfl hrest
      · exact .of_moved rfl hrest

/-- A conditional takes its operands, one of them to be executed. -/
theorem outcome_beginConditional : Outcome m.Bears m.nextIdentity false m.beginConditional := by
  unfold beginConditional
  split
  · exact .of_failed _
  · next s hcondition =>
      rcases State.takeCondition_eq_ok_iff.mp hcondition with
        ⟨value, object, b, other, rest, hoperands, _, _, rfl⟩
      refine .of_moved rfl fun v hv => State.Bears.of_subset hv ?_ rfl
      rw [hoperands]
      exact List.subset_cons_of_subset _ (List.subset_cons_self _ _)
  · next target s hcondition =>
      rcases State.takeCondition_eq_ok_iff.mp hcondition with
        ⟨value, object, b, other, rest, hoperands, _, htarget, rfl⟩
      -- What waits to be executed then was on top of the stack.
      have hvalue : target = value := by
        split at htarget
        · exact Option.some.inj htarget
        · cases htarget
      refine .moves nofun rfl fun {v i} hi hv => Or.inl ?_
      rcases hv with hv | ⟨task, hmem, hv⟩
      · refine State.Bears.of_subset hv ?_ rfl
        rw [hoperands]
        exact List.subset_cons_of_subset _ (List.subset_cons_self _ _)
      · rw [List.mem_singleton.mp hmem] at hv
        have hocc : v.OccursIn value := hvalue ▸ hv
        refine Or.inl ⟨⟨value, object⟩, ?_, Or.inl hocc⟩
        rw [hoperands]
        exact List.mem_cons_self

/-- A value pushed that was there, or that has no identity. -/
theorem outcome_push {before : Value → Prop} (command : String) {value : Value}
    (hbefore : ∀ v, m.Bears v → before v)
    (hvalue : ∀ {v : Value} {i : Identity}, v.identity? = some i → v.OccursIn value → before v) :
    Outcome before m.nextIdentity false
      (.finished (.ofChange m command (m.push? m.settings value))) := by
  rcases hpush : m.push? m.settings value with c | s
  · exact .of_moved rfl hbefore
  · rcases State.push?_eq_ok_iff.mp hpush with ⟨_, rfl⟩
    refine .moves nofun rfl fun {v i} hi hv => Or.inl ?_
    rcases Process.bears_finished hv with ⟨cell, hmem, hcell⟩ | hentry
    · rcases List.mem_cons.mp hmem with rfl | hmem
      · exact hvalue hi (Cell.bears_of.mp hcell)
      · exact hbefore v (Or.inl ⟨cell, hmem, hcell⟩)
    · exact hbefore v (Or.inr hentry)

/-- Executing a value. -/
theorem outcome_beginValue (name : String) (value : Value) :
    Outcome (fun v => m.Bears v ∨ v.OccursIn value) m.nextIdentity
      ((Task.execute value name).constructs m) (m.beginValue name value) := by
  cases value with
  | operator op =>
      -- Noting an event changes neither the machine nor the tasks.
      have hnoted : ∀ {c : Bool} {q : Process}, Outcome m.Bears m.nextIdentity c q →
          Outcome (fun v => m.Bears v ∨ v.OccursIn (.operator op)) m.nextIdentity c
            (q.noting (.invoked op)) := fun h =>
        h.withTasks (fun _ => Or.inl) rfl rfl fun _ hmem => Or.inl hmem
      cases op with
      | primitive op => exact hnoted (outcome_perform op)
      | findfont => exact hnoted outcome_findFont
      | conditional => exact hnoted outcome_beginConditional
  | procedure identity body =>
      change Outcome _ _ false (m.enter name body)
      unfold enter
      split
      · -- Running the body and leaving the procedure are tasks that bear nothing.
        refine Outcome.withTasks (q := .finished (.done { m with depth := m.depth + 1 }))
          (.of_moved rfl fun _ hv => hv) (fun _ => Or.inl) rfl rfl fun task hmem => ?_
        simp only [List.mem_cons, List.not_mem_nil, or_false] at hmem
        rcases hmem with rfl | rfl
        · exact Or.inr nofun
        · exact Or.inr nofun
      · exact .of_moved rfl fun _ => Or.inl
  | literal identity inner =>
      exact outcome_push name (fun _ => Or.inl) fun _ hocc => Or.inr (.wrapped hocc)
  | real x => exact .of_moved rfl fun _ => Or.inl
  | name text => exact .of_moved rfl fun _ => Or.inl
  | bool b => exact .of_moved rfl fun _ => Or.inl
  | array identity items => exact .of_moved rfl fun _ => Or.inl

/-- A closing bracket makes an array of operands or fails. -/
theorem outcome_closeArray : Outcome m.Bears m.nextIdentity true (.finished m.closeArray) := by
  rcases hmarks : m.marks with _ | ⟨height, marks⟩
  · rw [closeArray_of_nil hmarks]
    exact .of_failed _
  · rcases Nat.lt_or_ge m.operands.length height with hlt | hle
    · rw [closeArray_of_lt hmarks hlt]
      exact .of_stopped rfl fun _ hv => hv
    · rw [closeArray_of_le hmarks hle]
      have hcleared : ∀ v, (m.cleared height marks).Bears v → m.Bears v :=
        fun v hv => State.Bears.of_subset hv (List.drop_subset _ _) rfl
      split
      · refine .of_pushed (v := .array m.nextIdentity (m.gathered height))
          (m.cleared height marks).operands rfl rfl rfl rfl (fun {w i} _ hw => ?_) hcleared
        -- The array is new, and its items were operands above the bracket.
        cases hw with
        | self => exact Or.inr rfl
        | item hmem hitem =>
            rcases List.mem_map.mp hmem with ⟨cell, hcell, rfl⟩
            exact Or.inl (Or.inl ⟨cell,
              List.mem_of_mem_take (List.mem_reverse.mp hcell), Or.inl hitem⟩)
      · exact .of_stopped rfl hcleared

/-- An open brace makes a procedure or fails. -/
theorem outcome_pushCaptured (lexeme : String) (body : List String) :
    Outcome m.Bears m.nextIdentity true (.finished (m.pushCaptured lexeme body)) := by
  unfold pushCaptured
  rcases hpush : m.pushProcedure? m.settings body with c | s
  · exact .of_failed _
  · rcases State.pushProcedure?_eq_ok_iff.mp hpush with ⟨_, rfl⟩
    refine .of_pushed (v := .procedure m.nextIdentity body) m.operands rfl rfl rfl rfl
      (fun {w i} _ hw => ?_) fun w hw => hw
    -- Nothing is inside a procedure, as its body is lexemes.
    cases hw with
    | self => exact Or.inr rfl

/-- A lexeme neither gathers an array nor begins a procedure if its first character is
    of a kind that neither a bracket nor a brace is of. -/
theorem constructs_eq_false {lexeme : String} {first : Char} {rest : List Char}
    (hlexeme : lexeme.toList = first :: rest) (kind : Char → Bool) (hkind : kind first = true)
    (hbracket : kind ']' = false) (hbrace : kind '\x7b' = false) : constructs lexeme = false := by
  have hne : ∀ c, kind c = false → first ≠ c := by
    rintro c hc rfl
    rw [hkind] at hc
    cases hc
  simp only [constructs, beginsProcedure, hlexeme, List.head?_cons, Bool.or_eq_false_iff,
    beq_eq_false_iff_ne, ne_eq, Option.some.injEq]
  exact ⟨hne ']' hbracket, hne '\x7b' hbrace⟩

/-- What a lexeme does that is not a name. -/
theorem outcome_stepPlain (lexeme : String) :
    Outcome m.Bears m.nextIdentity (constructs lexeme) (.finished (m.stepPlain lexeme)) := by
  unfold stepPlain
  split
  · exact .of_failed _
  · next first rest hlexeme =>
      split
      · next hname =>
          rw [constructs_eq_false hlexeme (· == nameMark) (beq_iff_eq.mpr hname) rfl rfl]
          exact outcome_push lexeme (fun _ hv => hv) fun hi hocc =>
            absurd hocc (Value.not_occursIn_of_none hi rfl)
      · split
        · next hnumber =>
            rw [constructs_eq_false hlexeme startsNumber hnumber rfl rfl]
            cases readNumber lexeme with
            | error c => exact .of_failed _
            | ok x =>
                exact outcome_push lexeme (fun _ hv => hv) fun hi hocc =>
                  absurd hocc (Value.not_occursIn_of_none hi rfl)
        · split
          · next hopen =>
              rw [constructs_eq_false hlexeme (· == '[') (beq_iff_eq.mpr hopen) rfl rfl]
              exact .of_moved rfl fun _ hv => hv
          · split
            · next hclose =>
                have htrue : constructs lexeme = true := by
                  simp only [constructs, hlexeme, hclose, List.head?_cons, beq_self_eq_true,
                    Bool.true_or]
                rw [htrue]
                exact outcome_closeArray
            · exact .of_failed _

/-- What a lexeme does that does not begin a procedure. -/
theorem outcome_beginLexeme (lexeme : String) :
    Outcome m.Bears m.nextIdentity (constructs lexeme) (m.beginLexeme lexeme) := by
  unfold beginLexeme
  split
  · next hname =>
      unfold isName at hname
      rcases hlexeme : lexeme.toList with _ | ⟨first, rest⟩
      · rw [hlexeme] at hname
        cases hname
      · rw [hlexeme] at hname
        rw [constructs_eq_false hlexeme isLetter hname (by decide +kernel) (by decide +kernel)]
        unfold beginName
        split
        · next cell hlookup =>
            refine .moves nofun rfl fun {v i} hi hv => ?_
            rcases hv with hv | ⟨task, hmem, hv⟩
            · exact Or.inl hv
            · rw [List.mem_singleton.mp hmem] at hv
              exact State.bears_of_lookup hi hlookup (Or.inl hv)
        · exact .of_failed _
  · exact outcome_stepPlain lexeme

end Machine

namespace Supply

/-- The machine after a lexeme is asked for. -/
def Taken.machine : Taken → Machine
  | .ended m => m
  | .unreadable m _ => m
  | .lexeme _ _ m => m

/-- Asking for a lexeme changes the source at most. -/
theorem machine_take (supply : Supply) (m : Machine) :
    ∃ input, (supply.take m).machine = { m with input := input } := by
  cases supply with
  | list lexemes =>
      cases lexemes with
      | nil => exact ⟨m.input, rfl⟩
      | cons lexeme rest => exact ⟨m.input, rfl⟩
  | input =>
      have hnext : ∃ input, m.nextLexeme.2 = { m with input := input } := by
        unfold Machine.nextLexeme
        split
        · exact ⟨m.input, rfl⟩
        · exact ⟨_, rfl⟩
      rcases hnext with ⟨input, hnext⟩
      refine ⟨input, ?_⟩
      rw [← hnext]
      unfold take
      dsimp only
      rcases m.nextLexeme with ⟨found | _ | _, rest⟩
      · rfl
      · rfl
      · rfl

/-- Capturing a procedure fails or pushes what is captured, and changes the source at
    most besides. -/
theorem capture_cases (supply : Supply) (m : Machine) (lexeme : String) :
    ∃ input, (∃ f, (supply.capture m lexeme).2 = .failed { m with input := input } f) ∨
      ∃ body, (supply.capture m lexeme).2
        = ({ m with input := input } : Machine).pushCaptured lexeme body := by
  cases supply with
  | list lexemes =>
      refine ⟨m.input, ?_⟩
      unfold capture
      dsimp only
      cases PathScript.capture 0 lexemes with
      | error depth => exact Or.inl ⟨_, rfl⟩
      | ok found => exact Or.inr ⟨found.1, rfl⟩
  | input =>
      change ∃ input, (∃ f, m.captureInput lexeme = .failed { m with input := input } f) ∨
        ∃ body, m.captureInput lexeme
          = ({ m with input := input } : Machine).pushCaptured lexeme body
      unfold Machine.captureInput
      split
      · exact ⟨m.input, Or.inl ⟨_, rfl⟩⟩
      · next t _ =>
          refine ⟨some (t.capture 0).2, ?_⟩
          dsimp only
          split
          · exact Or.inl ⟨_, rfl⟩
          · exact Or.inl ⟨_, rfl⟩
          · next body _ => exact Or.inr ⟨body, rfl⟩

end Supply

/-- The same with what is left of a supply to run, as running bears nothing. -/
theorem Outcome.thenRun {before : Value → Prop} {next : Identity} {constructing : Bool}
    {q : Process} (h : Outcome before next constructing q) (left : Supply) :
    Outcome before next constructing ⟨q.tasks ++ [.run left], q.run⟩ := by
  refine h.withTasks (fun _ hv => hv) rfl rfl fun task hmem => ?_
  rcases List.mem_append.mp hmem with hold | hnew
  · exact Or.inl hold
  · rw [List.mem_singleton.mp hnew]
    exact Or.inr nofun

/-- What a lexeme does, with what is left of its supply to run. -/
theorem Machine.outcome_lexeme (m : Machine) (lexeme : String) (left : Supply) :
    Outcome m.Bears m.nextIdentity (constructs lexeme)
      (if beginsProcedure lexeme then
        ⟨[.run (left.capture m lexeme).1], (left.capture m lexeme).2⟩
      else ⟨(m.beginLexeme lexeme).tasks ++ [.run left], (m.beginLexeme lexeme).run⟩) := by
  split
  · next hbegins =>
      have htrue : constructs lexeme = true := by
        simp only [constructs, hbegins, Bool.or_true]
      have hcaptured : Outcome m.Bears m.nextIdentity true
          (.finished (left.capture m lexeme).2) := by
        rcases left.capture_cases m lexeme with ⟨input, ⟨f, hcapture⟩ | ⟨body, hcapture⟩⟩
        · rw [hcapture]
          exact .of_stopped rfl fun _ hv => hv
        · rw [hcapture]
          exact outcome_pushCaptured (m := { m with input := input }) lexeme body
      rw [htrue]
      exact hcaptured.thenRun (left.capture m lexeme).1
  · exact (outcome_beginLexeme lexeme).thenRun left

/-- What tasks do to values. -/
theorem Task.outcome_perform (task : Task) (m : Machine) :
    Outcome (fun v => m.Bears v ∨ task.Bears v) m.nextIdentity (task.constructs m)
      (task.perform m) := by
  cases task with
  | execute value name => exact Machine.outcome_beginValue name value
  | leave => exact .of_moved rfl fun _ => Or.inl
  | run supply =>
      rcases supply.machine_take m with ⟨input, hmachine⟩
      simp only [Task.perform, Task.constructs]
      generalize supply.take m = taken at hmachine ⊢
      -- The machine that the lexeme is given to bears what this one does.
      cases taken with
      | ended taken =>
          rw [show taken = { m with input := input } from hmachine]
          exact .of_moved rfl fun _ => Or.inl
      | unreadable taken f =>
          rw [show taken = { m with input := input } from hmachine]
          exact .of_moved rfl fun _ => Or.inl
      | lexeme text left taken =>
          rw [show taken = { m with input := input } from hmachine]
          exact (Machine.outcome_lexeme { m with input := input } text left).withTasks
            (fun _ => Or.inl) rfl rfl fun _ hmem => Or.inl hmem

/-- What a step does to values. -/
theorem Process.outcome_step (p : Process) :
    Outcome p.Bears p.run.machine.nextIdentity p.constructing p.step := by
  rcases p with ⟨tasks, r⟩
  cases tasks with
  | nil =>
      have hfalse : (⟨[], r⟩ : Process).constructing = false := by
        unfold constructing
        cases r.fault? <;> rfl
      rw [hfalse]
      exact .moves nofun rfl fun _ hv => Or.inl hv
  | cons task tasks =>
      have htasks : ∀ other ∈ tasks, ∀ v, other.Bears v → Process.Bears ⟨task :: tasks, r⟩ v :=
        fun other hmem v hv => Or.inr ⟨other, List.mem_cons_of_mem _ hmem, hv⟩
      rcases Option.eq_none_or_eq_some r.fault? with hnone | ⟨f, hsome⟩
      · have hconstructing : (⟨task :: tasks, r⟩ : Process).constructing
            = task.constructs r.machine := by
          simp only [constructing, hnone]
        rw [step_of_none hnone, hconstructing]
        refine (task.outcome_perform r.machine).withTasks (fun v hv => ?_) rfl rfl
          fun other hmem => ?_
        · rcases hv with hv | hv
          · exact Or.inl hv
          · exact Or.inr ⟨task, List.mem_cons_self, hv⟩
        · rcases List.mem_append.mp hmem with hbegun | hlater
          · exact Or.inl hbegun
          · exact Or.inr (htasks other hlater)
      · have hfalse : (⟨task :: tasks, r⟩ : Process).constructing = false := by
          simp only [constructing, hsome]
        rw [step_of_fault hsome, hfalse]
        -- Dropping a task leaves a procedure at most.
        have hmachine : ∀ v, (task.abandon r.machine).Bears v → r.machine.Bears v := by
          intro v hv
          cases task with
          | run supply => exact hv
          | execute value name => exact hv
          | leave => exact hv
        have hnext : (task.abandon r.machine).nextIdentity = r.machine.nextIdentity := by
          cases task with
          | run supply => rfl
          | execute value name => rfl
          | leave => rfl
        refine .moves nofun hnext fun {v i} _ hv => Or.inl ?_
        rcases hv with hv | ⟨other, hmem, hv⟩
        · exact Or.inl (hmachine v hv)
        · exact htasks other hmem v hv

end PathScript
