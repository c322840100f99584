import PathScript.Proofs.Simulation

/-!
# Relaxed Limits

Limits are there to stop a program, not to influence it. A program that is not
stopped by a limit runs the same under any settings that are at least as
permissive.

Three things are limited, in six places: the height of the operand stack where
a value, a procedure, an array or the identity map is pushed, the number of
saved graphics states, and the nesting of procedures. Each place looks at its
limit once and either goes on as if there were none or refuses with a kind of
report that nothing else uses. `Relaxed` says that of two results: they are
the same, unless the first is such a refusal. It is the only thing to be shown
of an operator; that the two runs stay in step follows from there.

## Main definitions

* `ErrorKind.isLimit`, `Fault.isLimit`: What reports that a limit is reached.
* `Run.AtLimit`: A run stopped by a limit.
* `LimitRelaxes`, `Settings.Relaxes`: Limits and settings at least as
  permissive as others.
* `Relaxed`: Results that differ only if the first is stopped by a limit.
* `Machine.withSettings`: A machine under other settings.

## Theorems

* `underLimit_of_relaxes`: A relaxed limit leaves as much room.
* `Primitive.relaxed_perform`: Operators under relaxed settings.
* `relaxation_simulation`: Machines under relaxed settings stay in step.
* `runFrom_withSettings_of_relaxes`: A run that is not stopped by a limit is the
  same under relaxed settings.
-/

namespace PathScript

/-- Whether a kind of report says that a limit is reached. -/
def ErrorKind.isLimit : ErrorKind → Bool
  | .stackOverflow => true
  | .limitCheck => true
  | .execStackOverflow => true
  | _ => false

/-- Whether a fault reports that a limit is reached. -/
def Fault.isLimit : Fault → Bool
  | .report r => r.kind.isLimit
  | _ => false

/-- A run stopped by a limit. -/
def Run.AtLimit (r : Run) : Prop := ∃ f, r.fault? = some f ∧ f.isLimit = true

/-- A limit on a stack at least as permissive as another: there is none, or the
    other one is on and no higher. -/
def LimitRelaxes (limit relaxed : Int) : Prop := relaxed = 0 ∨ (limit ≠ 0 ∧ limit ≤ relaxed)

/-- Settings that differ from others in the limits only and are at least as
    permissive. -/
structure Settings.Relaxes (limits relaxed : Settings) : Prop where
  encoding_eq : relaxed.encoding = limits.encoding
  prologMarker_eq : relaxed.prologMarker = limits.prologMarker
  maxOperands : LimitRelaxes limits.maxOperands relaxed.maxOperands
  maxSaved : LimitRelaxes limits.maxSaved relaxed.maxSaved
  maxDepth : limits.maxDepth ≤ relaxed.maxDepth

/-- Where a limit leaves room, a relaxed one does. -/
theorem underLimit_of_relaxes {limit relaxed : Int} (h : LimitRelaxes limit relaxed)
    (height : Nat) (hroom : underLimit limit height = true) : underLimit relaxed height = true := by
  unfold underLimit at hroom ⊢
  simp only [Bool.or_eq_true, beq_iff_eq, decide_eq_true_eq] at hroom ⊢
  rcases h with hnone | ⟨hon, hle⟩
  · exact Or.inl hnone
  · rcases hroom with hoff | hlt
    · exact absurd hoff hon
    · exact Or.inr (by omega)

/-- Two results that are the same, unless the first is the complaint that a limit
    is reached. -/
def Relaxed {α : Type} (x y : Except Complaint α) : Prop :=
  y = x ∨ ∃ kind : ErrorKind, kind.isLimit = true ∧ x = .error (.plain kind)

/-- What goes on while there is room and refuses otherwise, where the second has
    room whenever the first has. -/
theorem relaxed_ite {α : Type} {room room' : Bool} (h : room = true → room' = true) (result : α)
    (kind : ErrorKind) (hkind : kind.isLimit = true) :
    Relaxed (if room then .ok result else .error (.plain kind))
      (if room' then .ok result else .error (.plain kind)) := by
  cases room with
  | true => exact Or.inl (by rw [h rfl])
  | false => exact Or.inr ⟨kind, hkind, rfl⟩

section

variable {limits relaxed : Settings} (h : limits.Relaxes relaxed)
include h

namespace State

theorem hasRoom_of_relaxes (s : State) (hroom : s.hasRoom limits = true) :
    s.hasRoom relaxed = true :=
  underLimit_of_relaxes h.maxOperands s.operands.length hroom

theorem relaxed_push? (s : State) (value : Value) :
    Relaxed (s.push? limits value) (s.push? relaxed value) :=
  relaxed_ite (s.hasRoom_of_relaxes h) _ .stackOverflow rfl

theorem relaxed_pushProcedure? (s : State) (body : List String) :
    Relaxed (s.pushProcedure? limits body) (s.pushProcedure? relaxed body) :=
  relaxed_ite (s.hasRoom_of_relaxes h) _ .stackOverflow rfl

theorem relaxed_pushIdentity (s : State) :
    Relaxed (s.pushIdentity limits) (s.pushIdentity relaxed) :=
  relaxed_ite (s.hasRoom_of_relaxes h) _ .stackOverflow rfl

theorem relaxed_duplicate (s : State) : Relaxed (s.duplicate limits) (s.duplicate relaxed) := by
  unfold duplicate
  cases s.operands with
  | nil => exact Or.inl rfl
  | cons cell rest => exact s.relaxed_push? h cell.value

theorem relaxed_save (s : State) : Relaxed (s.save limits) (s.save relaxed) :=
  relaxed_ite (underLimit_of_relaxes h.maxSaved s.saved.length) _ .limitCheck rfl

end State

/-- An operator under relaxed settings does the same, unless it is stopped by a
    limit. All but four do not look at the settings at all. -/
theorem Primitive.relaxed_perform (p : Primitive) (s : State) :
    Relaxed (p.perform limits s) (p.perform relaxed s) := by
  cases p with
  | count => exact s.relaxed_push? h _
  | dup => exact s.relaxed_duplicate h
  | matrix => exact s.relaxed_pushIdentity h
  | gsave => exact s.relaxed_save h
  | _ => exact Or.inl rfl

end

/-- The machine under other settings. -/
def Machine.withSettings (m : Machine) (settings : Settings) : Machine :=
  { m with settings := settings }

/-- A machine and the same machine under relaxed settings. -/
def Machine.Relaxation (relaxed : Settings) (m m' : Machine) : Prop :=
  m.settings.Relaxes relaxed ∧ m' = m.withSettings relaxed

section

variable {relaxed : Settings} {m : Machine}

/-- The complaint that a limit is reached stops the run. -/
theorem atLimit_failed (command : String) {kind : ErrorKind} (h : kind.isLimit = true) :
    (Run.failed m (m.fault command (.plain kind))).AtLimit :=
  ⟨_, rfl, h⟩

/-- Changes of state whose results differ only if the first is stopped by a
    limit. -/
theorem agree_ofChange_of_relaxed (h : m.settings.Relaxes relaxed) (command : String)
    {x y : Except Complaint State} (hxy : Relaxed x y) :
    Run.Agree (Machine.Relaxation relaxed) (fun r _ => r.AtLimit) (.ofChange m command x)
      (.ofChange (m.withSettings relaxed) command y) := by
  rcases hxy with hsame | ⟨kind, hkind, hx⟩
  · rw [hsame]
    cases x with
    | ok s => exact Or.inr ⟨rfl, h, rfl⟩
    | error c => exact Or.inr ⟨rfl, h, rfl⟩
  · rw [hx]
    exact Or.inl (atLimit_failed command hkind)

theorem agree_perform_of_relaxes (h : m.settings.Relaxes relaxed) (p : Primitive) :
    Run.Agree (Machine.Relaxation relaxed) (fun r _ => r.AtLimit)
      ((m.perform p).after (.invoked (.primitive p)))
      (((m.withSettings relaxed).perform p).after (.invoked (.primitive p))) := by
  have hperform := p.relaxed_perform h m.toState
  rw [Machine.perform_eq, Machine.perform_eq]
  rcases hperform with hsame | ⟨kind, hkind, hstopped⟩
  · -- Other settings leave the state alone, so the operator is given the same one.
    rw [show p.perform (m.withSettings relaxed).settings (m.withSettings relaxed).toState
        = p.perform m.settings m.toState from hsame]
    cases p.perform m.settings m.toState with
    | ok s => exact Or.inr ⟨rfl, h, rfl⟩
    | error c => exact Or.inr ⟨rfl, h, rfl⟩
  · rw [hstopped]
    exact Or.inl ⟨_, rfl, hkind⟩

/-- A closing bracket looks at the limit when the operands above the open bracket
    are off the stack. -/
theorem agree_closeArray_of_relaxes (h : m.settings.Relaxes relaxed) :
    Run.Agree (Machine.Relaxation relaxed) (fun r _ => r.AtLimit) m.closeArray
      (m.withSettings relaxed).closeArray := by
  rcases hmarks : m.marks with _ | ⟨height, marks⟩
  · rw [Machine.closeArray_of_nil hmarks,
      Machine.closeArray_of_nil (m := m.withSettings relaxed) hmarks]
    exact Or.inr ⟨rfl, h, rfl⟩
  · rcases Nat.lt_or_ge m.operands.length height with hlt | hle
    · rw [Machine.closeArray_of_lt hmarks hlt,
        Machine.closeArray_of_lt (m := m.withSettings relaxed) hmarks hlt]
      exact Or.inr ⟨rfl, h, rfl⟩
    · rw [Machine.closeArray_of_le hmarks hle,
        Machine.closeArray_of_le (m := m.withSettings relaxed) hmarks hle]
      -- The operands above the bracket are off both stacks before the limits are looked at.
      by_cases hroom : (m.cleared height marks).hasRoom m.settings
      · have hrelaxed : ((m.withSettings relaxed).cleared height marks).hasRoom
            (m.withSettings relaxed).settings = true :=
          (m.cleared height marks).hasRoom_of_relaxes h hroom
        rw [if_pos hroom, if_pos hrelaxed]
        exact Or.inr ⟨rfl, h, rfl⟩
      · rw [if_neg hroom]
        exact Or.inl ⟨_, rfl, rfl⟩

theorem agree_beginConditional_of_relaxes (h : m.settings.Relaxes relaxed) :
    Process.Agree (Machine.Relaxation relaxed) (fun r _ => r.AtLimit) m.beginConditional
      (m.withSettings relaxed).beginConditional := by
  have hsame : (m.withSettings relaxed).takeCondition = m.takeCondition := rfl
  unfold Machine.beginConditional
  rw [hsame]
  rcases m.takeCondition with c | ⟨target, s⟩
  · exact Or.inr ⟨rfl, rfl, h, rfl⟩
  · cases target with
    | none => exact Or.inr ⟨rfl, rfl, h, rfl⟩
    | some target => exact Or.inr ⟨rfl, rfl, h, rfl⟩

theorem agree_findFont_of_relaxes (h : m.settings.Relaxes relaxed) :
    Run.Agree (Machine.Relaxation relaxed) (fun r _ => r.AtLimit) m.findFont
      (m.withSettings relaxed).findFont := by
  rcases hoperands : m.operands with _ | ⟨cell, rest⟩
  · rw [Machine.findFont_of_nil hoperands,
      Machine.findFont_of_nil (m := m.withSettings relaxed) hoperands]
    exact Or.inr ⟨rfl, h, rfl⟩
  · rw [Machine.findFont_of_cons hoperands,
      Machine.findFont_of_cons (m := m.withSettings relaxed) hoperands]
    exact Simulation.agree_skipFonts rfl h.prologMarker_eq.symm (fun _ => ⟨h, rfl⟩) ⟨h, rfl⟩

theorem agree_enter_of_relaxes (h : m.settings.Relaxes relaxed) (name : String)
    (body : List String) :
    Process.Agree (Machine.Relaxation relaxed) (fun r _ => r.AtLimit) (m.enter name body)
      ((m.withSettings relaxed).enter name body) := by
  unfold Machine.enter
  by_cases hdepth : (m.depth : Int) < m.settings.maxDepth
  · have hrelaxed : ((m.withSettings relaxed).depth : Int)
        < (m.withSettings relaxed).settings.maxDepth := Int.lt_of_lt_of_le hdepth h.maxDepth
    rw [if_pos hdepth, if_pos hrelaxed]
    exact Or.inr ⟨rfl, rfl, h, rfl⟩
  · rw [if_neg hdepth]
    exact Or.inl ⟨_, rfl, rfl⟩

end

/-- Machines under relaxed settings stay in step with the machines they come from
    until a limit is reached. -/
theorem relaxation_simulation (relaxed : Settings) :
    Simulation (Machine.Relaxation relaxed) (fun r _ => r.AtLimit) where
  persists := by
    rintro r r' s s' ⟨f, hfault, hlimit⟩ hpart _
    exact ⟨f, hpart.fault f hfault, hlimit⟩
  input_eq := by
    rintro m m' ⟨_, rfl⟩
    rfl
  withInput := by
    rintro m m' input ⟨h, rfl⟩
    exact ⟨h, rfl⟩
  lookup_eq := by
    rintro m m' key ⟨_, rfl⟩
    rfl
  push := by
    rintro m m' command value ⟨h, rfl⟩
    exact agree_ofChange_of_relaxed h command (m.relaxed_push? h value)
  pushCaptured := by
    rintro m m' lexeme body ⟨h, rfl⟩
    exact agree_ofChange_of_relaxed h lexeme (m.relaxed_pushProcedure? h body)
  openArray := by
    rintro m m' ⟨h, rfl⟩
    exact ⟨h, rfl⟩
  closeArray := by
    rintro m m' ⟨h, rfl⟩
    exact agree_closeArray_of_relaxes h
  perform := by
    rintro m m' p ⟨h, rfl⟩
    exact agree_perform_of_relaxes h p
  findFont := by
    rintro m m' ⟨h, rfl⟩
    exact agree_findFont_of_relaxes h
  beginConditional := by
    rintro m m' ⟨h, rfl⟩
    exact agree_beginConditional_of_relaxes h
  enter := by
    rintro m m' name body ⟨h, rfl⟩
    exact agree_enter_of_relaxes h name body
  leave := by
    rintro m m' ⟨h, rfl⟩
    exact ⟨h, rfl⟩

/-- A run that is not stopped by a limit is the same under relaxed settings: it
    has the same fault or none, and ends in the same machine, but for the
    settings. -/
theorem runFrom_withSettings_of_relaxes (m : Machine) (supply : Supply) (relaxed : Settings)
    (hrelaxes : m.settings.Relaxes relaxed) (hlimit : ¬ (m.runFrom supply).AtLimit) :
    ((m.withSettings relaxed).runFrom supply).fault? = (m.runFrom supply).fault? ∧
    ((m.withSettings relaxed).runFrom supply).machine
      = (m.runFrom supply).machine.withSettings relaxed := by
  have hrelated : m.Relaxation relaxed (m.withSettings relaxed) := ⟨hrelaxes, rfl⟩
  rcases (relaxation_simulation relaxed).agree_runFrom hrelated supply with
    hescape | ⟨hfault, _, hmachine⟩
  · exact absurd hescape hlimit
  · exact ⟨hfault.symm, hmachine⟩

/-- A program that defines and enters a procedure, saves a graphics state and fills
    the operand stack, under limits that just allow it and under others. -/
theorem runFrom_withSettings_of_relaxes_tight :
    let tight : Settings := { Settings.standard with maxOperands := 2, maxSaved := 1, maxDepth := 1 }
    let loose : Settings := { Settings.standard with maxOperands := 0, maxSaved := 3, maxDepth := 2 }
    let m := Machine.start tight (.text "")
    let supply := Supply.list
      ["/f", openBrace, "gsave", closeBrace, "def", "f", "/a", "/b", "exch"]
    tight.Relaxes loose ∧ ¬ (m.runFrom supply).AtLimit ∧
    ((m.withSettings loose).runFrom supply).fault? = (m.runFrom supply).fault? ∧
    ((m.withSettings loose).runFrom supply).machine
      = (m.runFrom supply).machine.withSettings loose := by
  intro tight loose m supply
  have hrelaxes : tight.Relaxes loose :=
    ⟨rfl, rfl, Or.inl rfl, Or.inr ⟨by decide, by decide⟩, by decide⟩
  have hrun : m.runFrom supply = ((Process.start m supply).after 20).run :=
    Process.runFrom_eq_of_tasks_nil (List.isEmpty_iff.mp (by decide +kernel))
  have hnone : (m.runFrom supply).fault? = none := by
    rw [hrun]
    decide +kernel
  have hlimit : ¬ (m.runFrom supply).AtLimit := by
    rintro ⟨f, hfault, _⟩
    rw [hnone] at hfault
    exact absurd hfault (by simp only [reduceCtorEq, not_false_eq_true])
  exact ⟨hrelaxes, hlimit, runFrom_withSettings_of_relaxes m supply loose hrelaxes hlimit⟩

end PathScript
