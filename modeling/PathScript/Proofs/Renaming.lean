import PathScript.Proofs.Numbering

/-!
# Renaming Identities

Identities are compared and given out, and nothing else is done with them. Which
numbers they are therefore does not matter: if they are renamed throughout a machine,
a program runs as it did before and ends on a machine whose identities are renamed in
the same way.

A renaming has to respect what is done with identities. Different ones stay different,
those that are built in stay what they are, and from some number on, the *base*, the
next identity is renamed to the next one, so that what is made on one machine gets the
renamed identity on the other. The last holds of machines whose next identity is at the
base or above, and as identities are given out in order it goes on to hold.

## Main definitions

* `Value.rename`, `State.rename`, `Machine.rename`, `Run.rename`, `Process.rename`: The
  same with other identities.
* `Renaming`: The conditions on a renaming.
* `Operands.Commutes`: A change of operands that does not look at identities.

## Theorems

* `Renaming.perform_rename`: Operators do the same under other identities.
* `Renaming.task_perform_rename`: So do tasks.
* `Process.step_rename`, `Process.after_rename`: So does a step, and so do any number
  of steps.
* `Machine.runFrom_rename`: So do whole runs.
-/

namespace PathScript

namespace Value

mutual

/-- The value with its identities renamed. -/
def rename (f : Identity → Identity) : Value → Value
  | .real x => .real x
  | .name text => .name text
  | .bool b => .bool b
  | .array identity items => .array (f identity) (renameAll f items)
  | .procedure identity body => .procedure (f identity) body
  | .operator op => .operator op
  | .literal identity inner => .literal (f identity) (inner.rename f)

/-- The values with their identities renamed. -/
def renameAll (f : Identity → Identity) : List Value → List Value
  | [] => []
  | value :: values => value.rename f :: renameAll f values

end

variable (f : Identity → Identity)

theorem renameAll_eq_map (values : List Value) : renameAll f values = values.map (rename f) := by
  induction values with
  | nil => rfl
  | cons value values ih => rw [renameAll, ih, List.map_cons]

theorem isExecutable_rename (v : Value) : (v.rename f).isExecutable = v.isExecutable := by
  cases v <;> rfl

theorem real?_rename (v : Value) : (v.rename f).real? = v.real? := by
  cases v <;> rfl

/-- Values are the same under other identities if different ones stay different. -/
theorem identical_rename {f : Identity → Identity} (hf : ∀ {i j}, f i = f j → i = j)
    (v w : Value) : (v.rename f).identical (w.rename f) = v.identical w := by
  have hbeq : ∀ i j, (f i == f j) = (i == j) := by
    intro i j
    rw [Bool.eq_iff_iff, beq_iff_eq, beq_iff_eq]
    exact ⟨hf, congrArg f⟩
  -- Values of different types are never the same, and the rest have no identity.
  cases v with
  | array i items =>
      cases w with
      | array j others => exact hbeq i j
      | _ => rfl
  | procedure i body =>
      cases w with
      | procedure j other =>
          simp only [rename, identical, hbeq]
      | _ => rfl
  | literal i inner =>
      cases w with
      | literal j other => exact hbeq i j
      | _ => rfl
  | _ =>
      cases w <;> rfl

end Value

/-- The cell with its identities renamed. -/
def Cell.rename (f : Identity → Identity) (cell : Cell) : Cell :=
  ⟨cell.value.rename f, cell.object?.map f⟩

namespace Dictionary

/-- The dictionary with its identities renamed. -/
def rename (f : Identity → Identity) (d : Dictionary) : Dictionary :=
  ⟨d.entries.map fun entry => (entry.1, entry.2.rename f)⟩

variable (f : Identity → Identity) (d : Dictionary)

theorem find?_rename (key : String) :
    (d.rename f).find? key = (d.find? key).map (Cell.rename f) := by
  -- The entry is found by its name, which stays.
  unfold find? rename
  rw [List.find?_map, Option.map_map, Option.map_map]
  rfl

theorem insert_rename (key : String) (cell : Cell) :
    (d.insert key cell).rename f = (d.rename f).insert key (cell.rename f) := by
  -- Entries are replaced by their names, too.
  unfold insert rename
  rw [List.map_cons, List.filter_map]
  rfl

end Dictionary

/-- The state with its identities renamed. -/
def State.rename (f : Identity → Identity) (s : State) : State :=
  { s with
    operands := s.operands.map (Cell.rename f)
    definitions := s.definitions.rename f
    nextIdentity := f s.nextIdentity }

/-- The machine with its identities renamed. -/
def Machine.rename (f : Identity → Identity) (m : Machine) : Machine :=
  { m with toState := m.toState.rename f }

/-- The run with the identities of its machine renamed. -/
def Run.rename (f : Identity → Identity) (r : Run) : Run :=
  { r with machine := r.machine.rename f }

/-- The task with the identities of what it executes renamed. -/
def Task.rename (f : Identity → Identity) : Task → Task
  | .run supply => .run supply
  | .execute value name => .execute (value.rename f) name
  | .leave => .leave

/-- What came of asking for a lexeme, with the identities of the machine renamed. -/
def Supply.Taken.rename (f : Identity → Identity) : Supply.Taken → Supply.Taken
  | .ended m => .ended (m.rename f)
  | .unreadable m fault => .unreadable (m.rename f) fault
  | .lexeme text left m => .lexeme text left (m.rename f)

/-- The process with its identities renamed. -/
def Process.rename (f : Identity → Identity) (p : Process) : Process :=
  ⟨p.tasks.map (Task.rename f), p.run.rename f⟩

/-- What has to be known of a renaming: different identities stay different, those built
    in stay as they are, and from the base on, the next one is renamed to the next
    one. -/
structure Renaming (base : Identity) (f : Identity → Identity) : Prop where
  injective : ∀ {i j : Identity}, f i = f j → i = j
  builtin : ∀ b, f (builtinIdentity b) = builtinIdentity b
  succ : ∀ {i : Identity}, base ≤ i → f (i + 1) = f i + 1

section

variable {f : Identity → Identity} {α β : Type}

/-- Operands that do not fit do not fit under other identities. -/
theorem refused_rename (needed : Nat) (cells : List Cell) (g : α → β) :
    (.error (.operands needed (cells.map (Cell.rename f))) : Except Complaint β)
      = Except.map g (.error (.operands needed cells)) := by
  simp only [Complaint.operands, List.length_map]
  rfl

end

namespace Operands

variable (f : Identity → Identity)

/-- A change of operands that does the same under other identities. -/
def Commutes (change : List Cell → Except Complaint (List Cell)) : Prop :=
  ∀ cells, change (cells.map (Cell.rename f)) = (change cells).map (List.map (Cell.rename f))

variable {f}

theorem commutes_arithmetic (operation : Binary64 → Binary64 → Binary64) :
    Commutes f (arithmetic operation) := by
  intro cells
  rcases cells with _ | ⟨⟨y, _⟩, _ | ⟨⟨x, _⟩, rest⟩⟩
  · exact refused_rename 2 [] _
  · cases y <;> exact refused_rename 2 [_] _
  · cases y with
    | real y =>
        cases x with
        | real x =>
            simp only [arithmetic, List.map_cons, Cell.rename, Value.rename]
            split <;> rfl
        | _ => exact refused_rename 2 (_ :: _ :: rest) _
    | _ => exact refused_rename 2 (_ :: _ :: rest) _

theorem commutes_divide : Commutes f divide := by
  intro cells
  have harithmetic := commutes_arithmetic (f := f) Binary64.div cells
  rcases cells with _ | ⟨⟨y, _⟩, _ | ⟨x, rest⟩⟩
  · exact harithmetic
  · cases y <;> exact harithmetic
  · cases y with
    | real y =>
        -- A zero divisor is refused before the other operand is looked at.
        simp only [divide, List.map_cons, Cell.rename, Value.rename] at harithmetic ⊢
        split
        · rfl
        · exact harithmetic
    | _ => exact harithmetic

theorem commutes_negate : Commutes f negate := by
  intro cells
  rcases cells with _ | ⟨⟨x, _⟩, rest⟩
  · rfl
  · cases x with
    | real x => rfl
    | _ => exact refused_rename 1 (_ :: rest) _

/-- Comparing by identity needs different identities to stay different. -/
theorem commutes_sameness (hf : ∀ {i j}, f i = f j → i = j) (answer : Bool → Bool) :
    Commutes f (sameness answer) := by
  intro cells
  rcases cells with _ | ⟨y, _ | ⟨x, rest⟩⟩
  · rfl
  · rfl
  · simp only [sameness, List.map_cons, Cell.rename, Value.identical_rename hf]
    rfl

theorem commutes_comparison (relation : Binary64 → Binary64 → Bool) :
    Commutes f (comparison relation) := by
  intro cells
  rcases cells with _ | ⟨⟨y, _⟩, _ | ⟨⟨x, _⟩, rest⟩⟩
  · rfl
  · cases y <;> rfl
  · cases y with
    | real y =>
        cases x with
        | real x => rfl
        | _ => exact refused_rename 2 (_ :: _ :: rest) _
    | _ => exact refused_rename 2 (_ :: _ :: rest) _

theorem commutes_complement : Commutes f complement := by
  intro cells
  rcases cells with _ | ⟨⟨b, _⟩, rest⟩
  · rfl
  · cases b with
    | bool b => rfl
    | _ => exact refused_rename 1 (_ :: rest) _

theorem commutes_exchange : Commutes f exchange := by
  intro cells
  rcases cells with _ | ⟨y, _ | ⟨x, rest⟩⟩ <;> rfl

theorem commutes_drop : Commutes f drop := by
  intro cells
  rcases cells with _ | ⟨x, rest⟩ <;> rfl

/-- Values are turned round by their places. -/
theorem commutes_roll : Commutes f roll := by
  intro cells
  rcases cells with _ | ⟨⟨j, _⟩, _ | ⟨⟨n, _⟩, rest⟩⟩
  · rfl
  · cases j <;> rfl
  · cases j with
    | real j =>
        cases n with
        | real n =>
            simp only [roll, List.map_cons, Cell.rename, Value.rename, List.length_map]
            rcases n.toInt? with _ | n
            · rfl
            · rcases j.toInt? with _ | j
              · rfl
              · dsimp only
                split
                · rfl
                · split
                  · rfl
                  · refine congrArg Except.ok (?_ : _ = List.map (Cell.rename f) _)
                    simp only [rotate, List.map_append, List.map_drop, List.map_take]
        | _ => exact refused_rename 2 (_ :: _ :: rest) _
    | _ => exact refused_rename 2 (_ :: _ :: rest) _

end Operands

namespace State

variable {f : Identity → Identity} (s : State)

theorem operands_rename : (s.rename f).operands = s.operands.map (Cell.rename f) := rfl

theorem hasRoom_rename (limits : Settings) : (s.rename f).hasRoom limits = s.hasRoom limits := by
  simp only [hasRoom, operands_rename, List.length_map]

theorem onOperands_rename {change : List Cell → Except Complaint (List Cell)}
    (h : Operands.Commutes f change) :
    (s.rename f).onOperands change = (s.onOperands change).map (rename f) := by
  unfold onOperands
  rw [operands_rename, h]
  cases change s.operands with
  | error c => rfl
  | ok operands => rfl

theorem push?_rename (limits : Settings) (value : Value) :
    (s.rename f).push? limits (value.rename f) = (s.push? limits value).map (rename f) := by
  unfold push?
  rw [hasRoom_rename]
  split <;> rfl

theorem drawTo_rename (instruction : Point → Instruction) :
    (s.rename f).drawTo instruction = (s.drawTo instruction).map (rename f) := by
  have hdevice : ∀ x y, (s.rename f).toDevice x y = s.toDevice x y := fun _ _ => rfl
  unfold drawTo
  rw [operands_rename]
  rcases s.operands with _ | ⟨⟨y, _⟩, _ | ⟨⟨x, _⟩, rest⟩⟩
  · rfl
  · cases y <;> rfl
  · cases y with
    | real y =>
        cases x with
        | real x =>
            simp only [List.map_cons, Cell.rename, Value.rename, hdevice]
            cases s.toDevice x y with
            | error c => rfl
            | ok p => rfl
        | _ => exact refused_rename 2 (_ :: _ :: rest) _
    | _ => exact refused_rename 2 (_ :: _ :: rest) _

theorem setStyle_rename {α : Type} (ofCode? : Int → Option α)
    (put : GraphicsState → α → GraphicsState) :
    (s.rename f).setStyle ofCode? put = (s.setStyle ofCode? put).map (rename f) := by
  unfold setStyle
  rw [operands_rename]
  rcases s.operands with _ | ⟨⟨x, _⟩, rest⟩
  · rfl
  · cases x with
    | real x =>
        simp only [List.map_cons, Cell.rename, Value.rename]
        cases styleChoice ofCode? x with
        | error c => rfl
        | ok style => rfl
    | _ => exact refused_rename 1 (_ :: rest) _

/-- A number on top under other identities is a number on top. -/
theorem exists_of_rename_real {cells rest : List Cell} {x : Binary64} {object : Option Identity}
    (h : cells.map (Cell.rename f) = ⟨.real x, object⟩ :: rest) :
    ∃ other below, cells = ⟨.real x, other⟩ :: below ∧ below.map (Cell.rename f) = rest := by
  rcases cells with _ | ⟨⟨value, other⟩, below⟩
  · cases h
  · rcases List.cons.inj h with ⟨hcell, hbelow⟩
    have hvalue : value.rename f = .real x := congrArg Cell.value hcell
    cases value with
    | real y => exact ⟨other, below, by rw [← hvalue]; rfl, hbelow⟩
    | _ => cases hvalue

theorem curveTo_rename : (s.rename f).curveTo = s.curveTo.map (rename f) := by
  have hdevice : ∀ x y, (s.rename f).toDevice x y = s.toDevice x y := fun _ _ => rfl
  unfold curveTo
  rw [operands_rename]
  generalize s.operands = cells
  split
  · next y₃ _ x₃ _ y₂ _ x₂ _ y₁ _ x₁ _ rest h₁ =>
      -- Six numbers on top under other identities are six numbers on top.
      rcases exists_of_rename_real h₁ with ⟨_, _, rfl, h₂⟩
      rcases exists_of_rename_real h₂ with ⟨_, _, rfl, h₃⟩
      rcases exists_of_rename_real h₃ with ⟨_, _, rfl, h₄⟩
      rcases exists_of_rename_real h₄ with ⟨_, _, rfl, h₅⟩
      rcases exists_of_rename_real h₅ with ⟨_, _, rfl, h₆⟩
      rcases exists_of_rename_real h₆ with ⟨_, below, rfl, rfl⟩
      simp only [hdevice]
      -- The points are the same, or one of them has no image.
      cases s.toDevice x₁ y₁ with
      | error c => rfl
      | ok p =>
          cases s.toDevice x₂ y₂ with
          | error c => rfl
          | ok q =>
              cases s.toDevice x₃ y₃ with
              | error c => rfl
              | ok r => rfl
  · next hother =>
      split
      · exact (hother _ _ _ _ _ _ _ _ _ _ _ _ _ rfl).elim
      · exact refused_rename 6 cells _

theorem dropColor_rename : (s.rename f).dropColor = s.dropColor.map (rename f) := by
  unfold dropColor
  rw [operands_rename]
  generalize s.operands = cells
  split
  · next h₁ =>
      rcases exists_of_rename_real h₁ with ⟨_, _, rfl, h₂⟩
      rcases exists_of_rename_real h₂ with ⟨_, _, rfl, h₃⟩
      rcases exists_of_rename_real h₃ with ⟨_, below, rfl, rfl⟩
      rfl
  · next hother =>
      split
      · exact (hother _ _ _ _ _ _ _ rfl).elim
      · exact refused_rename 3 cells _

theorem dropGray_rename : (s.rename f).dropGray = s.dropGray.map (rename f) := by
  unfold dropGray
  rw [operands_rename]
  rcases s.operands with _ | ⟨⟨x, _⟩, rest⟩
  · rfl
  · cases x with
    | real x => rfl
    | _ => exact refused_rename 1 (_ :: rest) _

theorem setLineWidth_rename : (s.rename f).setLineWidth = s.setLineWidth.map (rename f) := by
  unfold setLineWidth
  rw [operands_rename]
  rcases s.operands with _ | ⟨⟨x, _⟩, rest⟩
  · rfl
  · cases x with
    | real x => rfl
    | _ => exact refused_rename 1 (_ :: rest) _

theorem setMiterLimit_rename : (s.rename f).setMiterLimit = s.setMiterLimit.map (rename f) := by
  unfold setMiterLimit
  rw [operands_rename]
  rcases s.operands with _ | ⟨⟨x, _⟩, rest⟩
  · rfl
  · cases x with
    | real x =>
        simp only [List.map_cons, Cell.rename, Value.rename]
        split <;> rfl
    | _ => exact refused_rename 1 (_ :: rest) _

theorem closePath_rename : (s.rename f).closePath = s.closePath.rename f := by
  unfold closePath
  rw [show (s.rename f).graphics = s.graphics from rfl]
  split <;> rfl

/-- The numbers of an array are the same under other identities. -/
theorem mapM_real?_rename (items : List Value) :
    (Value.renameAll f items).mapM Value.real? = items.mapM Value.real? := by
  induction items with
  | nil => rfl
  | cons item items ih =>
      rw [Value.renameAll, List.mapM_cons, List.mapM_cons, Value.real?_rename, ih]

theorem concatenate_rename : (s.rename f).concatenate = s.concatenate.map (rename f) := by
  unfold concatenate
  rw [operands_rename]
  rcases s.operands with _ | ⟨⟨value, _⟩, rest⟩
  · rfl
  · cases value with
    | array identity items =>
        have hlength : (Value.renameAll f items).length = items.length := by
          rw [Value.renameAll_eq_map, List.length_map]
        have hgraphics : (s.rename f).graphics = s.graphics := rfl
        simp only [List.map_cons, Cell.rename, Value.rename, hlength, mapM_real?_rename, hgraphics]
        split
        · rfl
        · rcases (items.mapM Value.real?).bind Matrix.ofList? with _ | m
          · rfl
          · dsimp only
            rcases m.mul? s.graphics.ctm with _ | ctm
            · rfl
            · rfl
    | _ => exact refused_rename 1 (_ :: rest) _

theorem duplicate_rename (limits : Settings) :
    (s.rename f).duplicate limits = (s.duplicate limits).map (rename f) := by
  unfold duplicate
  rw [operands_rename]
  cases s.operands with
  | nil => rfl
  | cons cell rest => exact s.push?_rename limits cell.value

theorem takeCondition_rename :
    (s.rename f).takeCondition
      = s.takeCondition.map fun taken => (taken.1.map (Value.rename f), taken.2.rename f) := by
  unfold takeCondition
  rw [operands_rename]
  rcases s.operands with _ | ⟨⟨target, _⟩, _ | ⟨⟨b, _⟩, rest⟩⟩
  · rfl
  · rfl
  · cases b with
    | bool b =>
        simp only [List.map_cons, Cell.rename, Value.rename, Value.isExecutable_rename]
        split
        · cases b with
          | true => rfl
          | false => rfl
        · rfl
    | _ => exact refused_rename 2 (_ :: _ :: rest) _

end State

namespace Renaming

variable {base : Identity} {f : Identity → Identity} (hf : Renaming base f)
include hf

/-- What a name has built in has no other identities. -/
theorem rename_builtin {key : String} {value : Value} (h : builtin? key = some value) :
    value.rename f = value := by
  unfold builtin? at h
  split at h
  · rw [← Option.some.inj h]
    simp only [Value.rename, hf.builtin]
  · split at h
    · rw [← Option.some.inj h]
      simp only [Value.rename, hf.builtin]
    · rcases Option.map_eq_some_iff.mp h with ⟨op, _, rfl⟩
      rfl

theorem lookup?_rename (s : State) (key : String) :
    (s.rename f).lookup? key = (s.lookup? key).map (Cell.rename f) := by
  unfold State.lookup?
  rw [show (s.rename f).definitions = s.definitions.rename f from rfl, Dictionary.find?_rename]
  cases s.definitions.find? key with
  | some cell => rfl
  | none =>
      cases hbuiltin : builtin? key with
      | none => rfl
      | some value =>
          have hvalue := hf.rename_builtin hbuiltin
          exact congrArg (fun v => some (Cell.of v)) hvalue.symm

theorem load_rename (s : State) : (s.rename f).load = s.load.map (·.rename f) := by
  have hlookup := hf.lookup?_rename s
  unfold State.load
  rw [State.operands_rename]
  rcases s.operands with _ | ⟨⟨key, _⟩, rest⟩
  · rfl
  · cases key with
    | name key =>
        simp only [List.map_cons, Cell.rename, Value.rename, hlookup]
        cases s.lookup? key with
        | none => rfl
        | some cell => rfl
    | _ => exact refused_rename 1 (_ :: rest) _

variable {s : State} (hs : base ≤ s.nextIdentity)
include hs

theorem pushArray_rename (items : List Value) :
    (s.rename f).pushArray (items.map (Value.rename f)) = (s.pushArray items).rename f := by
  -- The next identity after the one given out is renamed to the next one.
  simp only [State.pushArray, State.rename, List.map_cons, Cell.of, Cell.rename, Value.rename,
    Value.renameAll_eq_map, hf.succ hs, Option.map_none]

theorem pushProcedure?_rename (limits : Settings) (body : List String) :
    (s.rename f).pushProcedure? limits body = (s.pushProcedure? limits body).map (·.rename f) := by
  unfold State.pushProcedure?
  rw [State.hasRoom_rename]
  split
  · refine congrArg Except.ok (?_ : _ = State.rename f _)
    simp only [State.rename, List.map_cons, Cell.of, Cell.rename, Value.rename, hf.succ hs,
      Option.map_none]
  · rfl

theorem pushIdentity_rename (limits : Settings) :
    (s.rename f).pushIdentity limits = (s.pushIdentity limits).map (·.rename f) := by
  unfold State.pushIdentity
  rw [State.hasRoom_rename]
  split
  · exact congrArg Except.ok (hf.pushArray_rename hs (Matrix.identity.toList.map .real))
  · rfl

/-- The literal procedure around an object that is remembered gets the renamed identity,
    and so does a new one. -/
theorem wrap_rename (cell : Cell) :
    (s.rename f).wrap (cell.rename f) = ((s.wrap cell).1.rename f, f (s.wrap cell).2) := by
  rcases cell with ⟨value, _ | object⟩
  · simp only [State.wrap, Cell.rename, Option.map_none, Value.rename, hf.succ hs]
    rfl
  · rfl

theorem define_rename : (s.rename f).define = s.define.map (·.rename f) := by
  have hwrap := hf.wrap_rename hs
  unfold State.define
  rw [State.operands_rename]
  rcases s.operands with _ | ⟨cell, _ | ⟨⟨key, object⟩, rest⟩⟩
  · rfl
  · rfl
  · cases key with
    | name key =>
        have hname : Cell.rename f ⟨.name key, object⟩ = ⟨.name key, object.map f⟩ := rfl
        have hexecutable : (cell.rename f).value.isExecutable = cell.value.isExecutable :=
          Value.isExecutable_rename f cell.value
        -- The cell is bound as it is, or a literal procedure around its value.
        simp only [List.map_cons, hname, hexecutable, hwrap]
        split
        · refine congrArg Except.ok (?_ : _ = State.rename f _)
          simp only [State.rename, Dictionary.insert_rename]
        · refine congrArg Except.ok (?_ : _ = State.rename f _)
          simp only [State.rename, Dictionary.insert_rename]
          rfl
    | _ => exact refused_rename 2 (_ :: _ :: rest) _

/-- Operators do the same under other identities. -/
theorem perform_rename (limits : Settings) (op : Primitive) :
    op.perform limits (s.rename f) = (op.perform limits s).map (·.rename f) := by
  cases op with
  | setgray => exact s.dropGray_rename
  | setrgbcolor => exact s.dropColor_rename
  | closepath => exact congrArg Except.ok s.closePath_rename
  | curveto => exact s.curveTo_rename
  | lineto => exact s.drawTo_rename .line
  | moveto => exact s.drawTo_rename .move
  | add | mul | sub => exact s.onOperands_rename (Operands.commutes_arithmetic _)
  | div => exact s.onOperands_rename Operands.commutes_divide
  | neg => exact s.onOperands_rename Operands.commutes_negate
  | eq | ne => exact s.onOperands_rename (Operands.commutes_sameness hf.injective _)
  | ge | gt | le | lt => exact s.onOperands_rename (Operands.commutes_comparison _)
  | not => exact s.onOperands_rename Operands.commutes_complement
  | exch => exact s.onOperands_rename Operands.commutes_exchange
  | pop => exact s.onOperands_rename Operands.commutes_drop
  | roll => exact s.onOperands_rename Operands.commutes_roll
  | count =>
      have hcount : (s.rename f).operands.length = s.operands.length := by
        rw [State.operands_rename, List.length_map]
      -- The number of operands is the same, and a number has no identity.
      change (s.rename f).push? limits (.real (.ofInt (s.rename f).operands.length)) = _
      rw [hcount]
      exact s.push?_rename limits (.real (.ofInt s.operands.length))
  | dup => exact s.duplicate_rename limits
  | concat => exact s.concatenate_rename
  | matrix => exact hf.pushIdentity_rename hs limits
  | grestore =>
      change (s.rename f).restore = s.restore.map (·.rename f)
      unfold State.restore
      rw [show (s.rename f).saved = s.saved from rfl]
      split <;> rfl
  | gsave =>
      change (s.rename f).save limits = (s.save limits).map (·.rename f)
      unfold State.save
      rw [show (s.rename f).saved = s.saved from rfl]
      split <;> rfl
  | setlinecap =>
      exact s.setStyle_rename LineCap.ofCode? fun g cap => { g with lineCap := cap }
  | setlinejoin =>
      exact s.setStyle_rename LineJoin.ofCode? fun g join => { g with lineJoin := join }
  | setlinewidth => exact s.setLineWidth_rename
  | setmiterlimit => exact s.setMiterLimit_rename
  | define => exact hf.define_rename hs
  | load => exact hf.load_rename s
  | newpath | eofill | fill | stroke | clip | length | clear | bind => rfl

end Renaming

/-- What can be observed of an operator is the same under other identities. -/
theorem Primitive.remarks_rename {f : Identity → Identity} (op : Primitive) (s : State) :
    op.remarks (s.rename f) = op.remarks s := by
  cases op with
  | setgray =>
      unfold remarks
      rw [State.operands_rename]
      rcases s.operands with _ | ⟨⟨level, _⟩, rest⟩
      · rfl
      · cases level <;> rfl
  | setrgbcolor =>
      unfold remarks
      rw [State.operands_rename]
      -- A colour is observed if its three parts are numbers.
      rcases s.operands with _ | ⟨⟨blue, _⟩, cells⟩
      · rfl
      · cases blue with
        | real blue =>
            rcases cells with _ | ⟨⟨green, _⟩, cells⟩
            · rfl
            · cases green with
              | real green =>
                  rcases cells with _ | ⟨⟨red, _⟩, cells⟩
                  · rfl
                  · cases red <;> rfl
              | _ => rfl
        | _ => rfl
  | _ => rfl

namespace Run

variable {f : Identity → Identity} (m : Machine)

theorem ofChange_rename (command : String) (x : Except Complaint State) :
    ofChange (m.rename f) command (x.map (State.rename f)) = (ofChange m command x).rename f := by
  cases x with
  | error c => rfl
  | ok s => rfl

end Run

namespace Machine

variable {f : Identity → Identity} (m : Machine)

theorem cleared_rename (height : Nat) (marks : List Nat) :
    (m.rename f).cleared height marks = (m.cleared height marks).rename f := by
  unfold cleared
  rw [show (m.rename f).operands = m.operands.map (Cell.rename f) from rfl, List.length_map,
    ← List.map_drop]
  rfl

theorem gathered_rename (height : Nat) :
    (m.rename f).gathered height = (m.gathered height).map (Value.rename f) := by
  unfold gathered
  rw [show (m.rename f).operands = m.operands.map (Cell.rename f) from rfl, List.length_map,
    ← List.map_take, ← List.map_reverse, List.map_map, List.map_map]
  rfl

theorem skipFonts_rename : (m.rename f).skipFonts = m.skipFonts.rename f := by
  unfold skipFonts
  rw [show (m.rename f).input = m.input from rfl]
  cases m.input with
  | none => rfl
  | some t =>
      -- What is reported depends on the source and the settings, which stay.
      rw [show (m.rename f).settings = m.settings from rfl]
      dsimp only
      rcases (t.skipTo m.settings.prologMarker).found with e | _ | _
      · rfl
      · rfl
      · rfl

theorem findFont_rename : (m.rename f).findFont = m.findFont.rename f := by
  rcases hoperands : m.operands with _ | ⟨cell, rest⟩
  · have hnil : (m.rename f).operands = [] := congrArg (List.map (Cell.rename f)) hoperands
    rw [findFont_of_nil hoperands, findFont_of_nil hnil]
    rfl
  · have hcons : (m.rename f).operands = cell.rename f :: rest.map (Cell.rename f) :=
      congrArg (List.map (Cell.rename f)) hoperands
    rw [findFont_of_cons hoperands, findFont_of_cons hcons]
    exact skipFonts_rename { m with operands := rest }

theorem beginConditional_rename : (m.rename f).beginConditional = m.beginConditional.rename f := by
  unfold beginConditional
  rw [show (m.rename f).toState = m.toState.rename f from rfl, State.takeCondition_rename]
  rcases m.takeCondition with c | ⟨_ | target, s⟩
  · rfl
  · rfl
  · rfl

theorem enter_rename (name : String) (body : List String) :
    (m.rename f).enter name body = (m.enter name body).rename f := by
  unfold enter
  rw [show (m.rename f).depth = m.depth from rfl,
    show (m.rename f).settings = m.settings from rfl]
  split <;> rfl

theorem push_rename (command : String) (value : Value) :
    Run.ofChange (m.rename f) command ((m.rename f).push? m.settings (value.rename f))
      = (Run.ofChange m command (m.push? m.settings value)).rename f := by
  rw [show (m.rename f).toState = m.toState.rename f from rfl, State.push?_rename,
    Run.ofChange_rename]

end Machine

/-- Asking for a lexeme does the same under other identities. -/
theorem Supply.take_rename {f : Identity → Identity} (m : Machine) (supply : Supply) :
    supply.take (m.rename f) = (supply.take m).rename f := by
  cases supply with
  | list lexemes =>
      cases lexemes with
      | nil => rfl
      | cons lexeme rest => rfl
  | input =>
      have hnext : (m.rename f).nextLexeme = (m.nextLexeme.1, m.nextLexeme.2.rename f) := by
        unfold Machine.nextLexeme
        rw [show (m.rename f).input = m.input from rfl]
        cases m.input with
        | none => rfl
        | some t => rfl
      simp only [take, hnext]
      rcases m.nextLexeme with ⟨fault | _ | lexeme, rest⟩
      · rfl
      · rfl
      · rfl

namespace Renaming

variable {base : Identity} {f : Identity → Identity} (hf : Renaming base f)
include hf

theorem beginName_rename (m : Machine) (name : String) :
    (m.rename f).beginName name = (m.beginName name).rename f := by
  unfold Machine.beginName
  rw [show (m.rename f).toState = m.toState.rename f from rfl, hf.lookup?_rename]
  cases m.lookup? name with
  | none => rfl
  | some cell => rfl

variable {m : Machine} (hm : base ≤ m.nextIdentity)
include hm

theorem machine_perform_rename (op : Primitive) :
    (m.rename f).perform op = (m.perform op).rename f := by
  rw [Machine.perform_eq, Machine.perform_eq]
  rw [show (m.rename f).toState = m.toState.rename f from rfl, Primitive.remarks_rename,
    show (m.rename f).settings = m.settings from rfl, hf.perform_rename hm]
  cases op.perform m.settings m.toState with
  | error c => rfl
  | ok s => rfl

theorem closeArray_rename : (m.rename f).closeArray = m.closeArray.rename f := by
  have hlength : (m.rename f).operands.length = m.operands.length := List.length_map _
  rcases hmarks : m.marks with _ | ⟨height, marks⟩
  · have hmarks' : (m.rename f).marks = [] := hmarks
    rw [Machine.closeArray_of_nil hmarks, Machine.closeArray_of_nil hmarks']
    rfl
  · have hmarks' : (m.rename f).marks = height :: marks := hmarks
    rcases Nat.lt_or_ge m.operands.length height with hlt | hle
    · rw [Machine.closeArray_of_lt hmarks hlt,
        Machine.closeArray_of_lt hmarks' (hlength ▸ hlt)]
      rfl
    · rw [Machine.closeArray_of_le hmarks hle,
        Machine.closeArray_of_le hmarks' (hlength ▸ hle), Machine.cleared_rename,
        Machine.gathered_rename, show (m.rename f).settings = m.settings from rfl,
        show ((m.cleared height marks).rename f).toState
          = (m.cleared height marks).toState.rename f from rfl,
        State.hasRoom_rename]
      split
      · have hpushed := hf.pushArray_rename (s := (m.cleared height marks).toState) hm
          (m.gathered height)
        rw [hpushed]
        rfl
      · rfl

theorem pushCaptured_rename (lexeme : String) (body : List String) :
    (m.rename f).pushCaptured lexeme body = (m.pushCaptured lexeme body).rename f := by
  unfold Machine.pushCaptured
  rw [show (m.rename f).toState = m.toState.rename f from rfl,
    show (m.rename f).settings = m.settings from rfl, hf.pushProcedure?_rename hm,
    Run.ofChange_rename]

theorem stepPlain_rename (lexeme : String) :
    (m.rename f).stepPlain lexeme = (m.stepPlain lexeme).rename f := by
  unfold Machine.stepPlain
  split
  · rfl
  · next first rest _ =>
      split
      · exact m.push_rename lexeme (.name (String.ofList rest))
      · split
        · cases Machine.readNumber lexeme with
          | error c => rfl
          | ok x => exact m.push_rename lexeme (.real x)
        · split
          · -- The height that an open bracket remembers is the same.
            have hlength : (m.rename f).operands.length = m.operands.length := List.length_map _
            simp only [Machine.openArray, hlength]
            rfl
          · split
            · exact hf.closeArray_rename hm
            · rfl

theorem beginLexeme_rename (lexeme : String) :
    (m.rename f).beginLexeme lexeme = (m.beginLexeme lexeme).rename f := by
  unfold Machine.beginLexeme
  split
  · exact hf.beginName_rename m lexeme
  · rw [hf.stepPlain_rename hm]
    rfl

theorem beginValue_rename (name : String) (value : Value) :
    (m.rename f).beginValue name (value.rename f) = (m.beginValue name value).rename f := by
  cases value with
  | operator op =>
      cases op with
      | primitive op =>
          exact congrArg (fun r => Process.noting (.invoked (.primitive op)) (.finished r))
            (hf.machine_perform_rename hm op)
      | findfont =>
          exact congrArg (fun r => Process.noting (.invoked .findfont) (.finished r))
            m.findFont_rename
      | conditional =>
          exact congrArg (Process.noting (.invoked .conditional)) m.beginConditional_rename
  | procedure identity body => exact m.enter_rename name body
  | literal identity inner => exact congrArg Process.finished (m.push_rename name inner)
  | real x => rfl
  | name text => rfl
  | bool b => rfl
  | array identity items => rfl

theorem captureInput_rename (lexeme : String) :
    (m.rename f).captureInput lexeme = (m.captureInput lexeme).rename f := by
  unfold Machine.captureInput
  rw [show (m.rename f).input = m.input from rfl]
  cases m.input with
  | none => rfl
  | some t =>
      -- What is captured is lexemes, which have no identities.
      dsimp only
      rcases (t.capture 0).1 with (e | depth) | body
      · rfl
      · rfl
      · exact hf.pushCaptured_rename (m := { m with input := some (t.capture 0).2 }) hm lexeme body

/-- Capturing a procedure does the same under other identities. -/
theorem capture_rename (lexeme : String) (supply : Supply) :
    supply.capture (m.rename f) lexeme
      = ((supply.capture m lexeme).1, (supply.capture m lexeme).2.rename f) := by
  cases supply with
  | list lexemes =>
      unfold Supply.capture
      dsimp only
      rcases PathScript.capture 0 lexemes with depth | ⟨body, left⟩
      · rfl
      · exact congrArg (Prod.mk _) (hf.pushCaptured_rename hm lexeme body)
  | input => exact congrArg (Prod.mk _) (hf.captureInput_rename hm lexeme)

/-- Tasks do the same under other identities. -/
theorem task_perform_rename (task : Task) :
    (task.rename f).perform (m.rename f) = (task.perform m).rename f := by
  cases task with
  | execute value name => exact hf.beginValue_rename hm name value
  | leave => rfl
  | run supply =>
      rcases supply.machine_take m with ⟨input, hmachine⟩
      simp only [Task.rename, Task.perform, Supply.take_rename]
      generalize supply.take m = taken at hmachine ⊢
      cases taken with
      | ended taken => rfl
      | unreadable taken f => rfl
      | lexeme text left taken =>
          -- Only the source is another one, so the next identity is still at the base.
          have htaken : base ≤ taken.nextIdentity := by
            rw [show taken = { m with input := input } from hmachine]
            exact hm
          simp only [Supply.Taken.rename]
          split
          · rw [hf.capture_rename htaken]
            rfl
          · rw [hf.beginLexeme_rename htaken]
            simp only [Process.rename, List.map_append, List.map_cons, List.map_nil]
            rfl

end Renaming

namespace Process

variable {base : Identity} {f : Identity → Identity} (hf : Renaming base f)
include hf

/-- A step does the same under other identities. -/
theorem step_rename {p : Process} (hp : base ≤ p.run.machine.nextIdentity) :
    (p.rename f).step = p.step.rename f := by
  rcases p with ⟨tasks, r⟩
  cases tasks with
  | nil => rfl
  | cons task tasks =>
      have hcons : Process.rename f ⟨task :: tasks, r⟩
          = ⟨task.rename f :: tasks.map (Task.rename f), r.rename f⟩ := rfl
      rw [hcons]
      rcases Option.eq_none_or_eq_some r.fault? with hnone | ⟨fault, hsome⟩
      · have hnone' : (r.rename f).fault? = none := hnone
        rw [step_of_none hnone, step_of_none hnone']
        have hperform := hf.task_perform_rename hp task
        rw [show (r.rename f).machine = r.machine.rename f from rfl, hperform]
        simp only [rename, List.map_append]
        rfl
      · -- After a fault, dropping a task leaves a procedure at most.
        have hsome' : (r.rename f).fault? = some fault := hsome
        rw [step_of_fault hsome, step_of_fault hsome']
        cases task with
        | run supply => rfl
        | execute value name => rfl
        | leave => rfl

/-- So do any number of steps. -/
theorem after_rename {p : Process} (hp : base ≤ p.run.machine.nextIdentity) (n : Nat) :
    (p.rename f).after n = (p.after n).rename f := by
  induction n with
  | zero => rfl
  | succ n ih =>
      -- The next identity never goes down, so it is still at the base or above.
      rw [after_succ, after_succ, ih]
      exact step_rename hf (Nat.le_trans hp (p.nextIdentity_le_after n))

end Process

/-- So do whole runs. -/
theorem Machine.runFrom_rename {base : Identity} {f : Identity → Identity} (hf : Renaming base f)
    {m : Machine} (hm : base ≤ m.nextIdentity) (supply : Supply) :
    (m.rename f).runFrom supply = (m.runFrom supply).rename f := by
  -- Both processes end after as many steps, and a process ends in one way only.
  rcases Process.reaches_runFrom m supply with ⟨n, hn⟩
  refine Process.eq_of_reaches_finished (Process.reaches_runFrom _ _) ⟨n, ?_⟩
  have hstart : Process.start (m.rename f) supply = (Process.start m supply).rename f := rfl
  rw [hstart, Process.after_rename hf hm, hn]
  rfl

end PathScript
