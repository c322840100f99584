import PathScript.Proofs.Executables
import PathScript.Proofs.Frame
import PathScript.Proofs.Renaming
import PathScript.Proofs.Sequencing

/-!
# Code in a Taken Conditional

Code that is put into a procedure and given to a conditional which is taken does what it
does by itself. It is captured as it stands, pushed with a truth value below it, taken
off again together with it, and run one level deeper.

Two things are different meanwhile. One more procedure is running, which shows only if
the limit on their nesting is reached. And the procedure that was captured has got the
identity that would have been the next one, so whatever the code makes gets the identity
after the one it would have got by itself. That is a renaming of the identities that are
given out from there on, and programs cannot tell.

For that the identities that a machine gives out must not be in use already. They are not
on any machine that programs and callers bring about, as `Proofs.Numbering` has it.

## Main definitions

* `Machine.Deeper`: The same machine inside at least as many procedures.
* `Run.NestsTooDeep`: A run stopped by the limit on the nesting of procedures.
* `shift`: The renaming that leaves one identity out.
* `taken`: Code in a conditional that is taken.

## Theorems

* `deeper_simulation`: Machines at different levels stay in step.
* `shift_renaming`: Leaving one identity out is a renaming.
* `State.rename_shift`: What is in a state keeps its identity.
* `Machine.runList_taken`: What a conditional that is taken comes to.
* `taken_conditional_transparent`: Code in a conditional that is taken does what it does
  by itself.
-/

namespace PathScript

/-- A machine that is the same but for being inside at least as many procedures. -/
def Machine.Deeper (m m' : Machine) : Prop :=
  ∃ depth, m.depth ≤ depth ∧ m' = { m with depth := depth }

/-- A run stopped by the limit on the nesting of procedures. -/
def Run.NestsTooDeep (r : Run) : Prop :=
  ∃ report, r.fault? = some (.report report) ∧ report.kind = .execStackOverflow

section

variable {m : Machine} {depth : Nat} (h : m.depth ≤ depth)
include h

/-- A change of state does the same at another level. -/
theorem agree_ofChange_deeper (command : String) (x : Except Complaint State) :
    Run.Agree Machine.Deeper (fun _ r' => r'.NestsTooDeep) (.ofChange m command x)
      (.ofChange { m with depth := depth } command x) := by
  cases x with
  | error c => exact Or.inr ⟨rfl, depth, h, rfl⟩
  | ok s => exact Or.inr ⟨rfl, depth, h, rfl⟩

theorem agree_perform_deeper (op : Primitive) :
    Run.Agree Machine.Deeper (fun _ r' => r'.NestsTooDeep)
      ((m.perform op).after (.invoked (.primitive op)))
      ((Machine.perform { m with depth := depth } op).after (.invoked (.primitive op))) := by
  rw [Machine.perform_eq, Machine.perform_eq]
  dsimp only
  cases op.perform m.settings m.toState with
  | error c => exact Or.inr ⟨rfl, depth, h, rfl⟩
  | ok s => exact Or.inr ⟨rfl, depth, h, rfl⟩

theorem agree_closeArray_deeper :
    Run.Agree Machine.Deeper (fun _ r' => r'.NestsTooDeep) m.closeArray
      (Machine.closeArray { m with depth := depth }) := by
  unfold Machine.closeArray
  dsimp only
  cases m.marks with
  | nil => exact Or.inr ⟨rfl, depth, h, rfl⟩
  | cons height marks =>
      dsimp only
      split
      · exact Or.inr ⟨rfl, depth, h, rfl⟩
      · -- There is room at one level if there is room at the other.
        split
        · exact Or.inr ⟨rfl, depth, h, rfl⟩
        · exact Or.inr ⟨rfl, depth, h, rfl⟩

theorem agree_findFont_deeper :
    Run.Agree Machine.Deeper (fun _ r' => r'.NestsTooDeep) m.findFont
      (Machine.findFont { m with depth := depth }) := by
  rcases hoperands : m.operands with _ | ⟨cell, rest⟩
  · have hdeeper : ({ m with depth := depth } : Machine).operands = [] := hoperands
    rw [Machine.findFont_of_nil hoperands, Machine.findFont_of_nil hdeeper]
    exact Or.inr ⟨rfl, depth, h, rfl⟩
  · have hdeeper : ({ m with depth := depth } : Machine).operands = cell :: rest := hoperands
    rw [Machine.findFont_of_cons hoperands, Machine.findFont_of_cons hdeeper]
    exact Simulation.agree_skipFonts rfl rfl (fun _ => ⟨depth, h, rfl⟩) ⟨depth, h, rfl⟩

theorem agree_beginConditional_deeper :
    Process.Agree Machine.Deeper (fun _ r' => r'.NestsTooDeep) m.beginConditional
      (Machine.beginConditional { m with depth := depth }) := by
  unfold Machine.beginConditional
  dsimp only
  rcases m.takeCondition with c | ⟨_ | target, s⟩
  · exact Or.inr ⟨rfl, rfl, depth, h, rfl⟩
  · exact Or.inr ⟨rfl, rfl, depth, h, rfl⟩
  · exact Or.inr ⟨rfl, rfl, depth, h, rfl⟩

/-- Entering a procedure, which the deeper machine may not be allowed any more. -/
theorem agree_enter_deeper (name : String) (body : List String) :
    Process.Agree Machine.Deeper (fun _ r' => r'.NestsTooDeep) (m.enter name body)
      (Machine.enter { m with depth := depth } name body) := by
  unfold Machine.enter
  dsimp only
  by_cases hdeep : (depth : Int) < m.settings.maxDepth
  · have hshallow : (m.depth : Int) < m.settings.maxDepth := by omega
    rw [if_pos hdeep, if_pos hshallow]
    exact Or.inr ⟨rfl, rfl, depth + 1, Nat.succ_le_succ h, rfl⟩
  · rw [if_neg hdeep]
    exact Or.inl ⟨_, rfl, rfl⟩

end

/-- Machines at different levels stay in step until the deeper one reaches the limit. -/
theorem deeper_simulation : Simulation Machine.Deeper (fun _ r' => r'.NestsTooDeep) where
  persists := by
    rintro r r' s s' ⟨report, hfault, hkind⟩ _ hpart
    exact ⟨report, hpart.fault _ hfault, hkind⟩
  input_eq := by
    rintro m m' ⟨depth, _, rfl⟩
    rfl
  withInput := by
    rintro m m' input ⟨depth, h, rfl⟩
    exact ⟨depth, h, rfl⟩
  lookup_eq := by
    rintro m m' key ⟨depth, _, rfl⟩
    rfl
  push := by
    rintro m m' command value ⟨depth, h, rfl⟩
    exact agree_ofChange_deeper h command _
  pushCaptured := by
    rintro m m' lexeme body ⟨depth, h, rfl⟩
    exact agree_ofChange_deeper h lexeme _
  openArray := by
    rintro m m' ⟨depth, h, rfl⟩
    exact ⟨depth, h, rfl⟩
  closeArray := by
    rintro m m' ⟨depth, h, rfl⟩
    exact agree_closeArray_deeper h
  perform := by
    rintro m m' op ⟨depth, h, rfl⟩
    exact agree_perform_deeper h op
  findFont := by
    rintro m m' ⟨depth, h, rfl⟩
    exact agree_findFont_deeper h
  beginConditional := by
    rintro m m' ⟨depth, h, rfl⟩
    exact agree_beginConditional_deeper h
  enter := by
    rintro m m' name body ⟨depth, h, rfl⟩
    exact agree_enter_deeper h name body
  leave := by
    rintro m m' ⟨depth, h, rfl⟩
    exact ⟨depth - 1, Nat.sub_le_sub_right h 1, rfl⟩

/-- The renaming that leaves one identity out: those below it stay, and the others go up
    by one. -/
def shift (left i : Nat) : Nat := if i < left then i else i + 1

theorem shift_of_lt {left i : Nat} (h : i < left) : shift left i = i := if_pos h

theorem shift_of_le {left i : Nat} (h : left ≤ i) : shift left i = i + 1 :=
  if_neg (Nat.not_lt.mpr h)

theorem shift_injective {left i j : Nat} (h : shift left i = shift left j) : i = j := by
  unfold shift at h
  split at h
  · split at h
    · exact h
    · omega
  · split at h
    · omega
    · omega

/-- Leaving one identity out is a renaming if it is not one of those built in. -/
theorem shift_renaming {left : Identity} (h : builtinIdentities ≤ left) :
    Renaming left (shift left) where
  injective := shift_injective
  builtin := by
    intro b
    refine shift_of_lt (Nat.lt_of_lt_of_le ?_ h)
    cases b with
    | true => decide
    | false => decide
  succ := by
    intro i hi
    rw [shift_of_le hi, shift_of_le (Nat.le_succ_of_le hi)]

/-- A value is as it was if all identities inside are. -/
theorem Value.rename_eq_self {f : Identity → Identity} {v : Value}
    (h : ∀ {w : Value} {i : Identity}, w.identity? = some i → w.OccursIn v → f i = i) :
    v.rename f = v := by
  induction v using nested_induction with
  | array identity items ih =>
      have hitems : items.map (rename f) = items := by
        refine (List.map_congr_left fun item hmem => ?_).trans (List.map_id items)
        exact ih item hmem fun hi hocc => h hi (.item hmem hocc)
      rw [rename, renameAll_eq_map, hitems, h rfl .self]
  | procedure identity body => rw [rename, h rfl .self]
  | literal identity inner ih =>
      rw [rename, h rfl .self, ih fun hi hocc => h hi (.wrapped hocc)]
  | _ => rfl

/-- So is a cell, if the object that it remembers is as well. -/
theorem Cell.rename_eq_self {f : Identity → Identity} {cell : Cell}
    (h : ∀ {w : Value} {i : Identity}, w.identity? = some i → cell.Bears w → f i = i) :
    cell.rename f = cell := by
  have hvalue : cell.value.rename f = cell.value :=
    Value.rename_eq_self fun hi hocc => h hi (Or.inl hocc)
  have hobject : cell.object?.map f = cell.object? := by
    cases hobject : cell.object? with
    | none => rfl
    | some object =>
        have hliteral : cell.Bears (.literal object cell.value) := Or.inr ⟨object, hobject, rfl⟩
        exact congrArg some (h rfl hliteral)
  rw [rename, hvalue, hobject]

/-- Leaving out the next identity changes that alone, as all that are in use are
    below it. -/
theorem State.rename_shift {s : State} (h : s.Numbered) :
    s.rename (shift s.nextIdentity) = { s with nextIdentity := s.nextIdentity + 1 } := by
  have hoperands : s.operands.map (Cell.rename (shift s.nextIdentity)) = s.operands := by
    refine (List.map_congr_left fun cell hmem => ?_).trans (List.map_id _)
    exact Cell.rename_eq_self fun hi hv => shift_of_lt (h.below hi (Or.inl ⟨cell, hmem, hv⟩))
  have hentries : s.definitions.entries.map
      (fun entry => (entry.1, entry.2.rename (shift s.nextIdentity))) = s.definitions.entries := by
    refine (List.map_congr_left fun entry hmem => ?_).trans (List.map_id _)
    have hcell : entry.2.rename (shift s.nextIdentity) = entry.2 :=
      Cell.rename_eq_self fun hi hv => shift_of_lt (h.below hi (Or.inr ⟨entry, hmem, hv⟩))
    rw [hcell]
    rfl
  rw [rename, hoperands, Dictionary.rename, hentries, shift_of_le (Nat.le_refl _)]

/-- Code in a conditional that is taken. -/
def taken (code : List String) : List String :=
  "true" :: openBrace :: (code ++ [closeBrace, "if"])

/-- Going on with nothing to run. -/
theorem Run.andThen_runLexemes_nil (r : Run) (call : Caller) :
    r.andThen (Machine.runLexemes call []) = r := by
  have hnil : Machine.runLexemes call [] = Run.done := by
    funext m
    rw [Machine.runLexemes]
  rcases Option.eq_none_or_eq_some r.fault? with hnone | ⟨f, hsome⟩
  · rw [hnil, andThen_of_none hnone]
    rcases r with ⟨m, fault, events⟩
    rw [show fault = none from hnone]
    exact congrArg (Run.mk m none) (List.append_nil events)
  · exact andThen_of_fault hsome _

namespace Machine

/-- Executing a name that is bound to what it has built in. -/
theorem step_builtin {m : Machine} {name : String} {value : Value}
    (hname : isName name = true) (hdefined : m.definitions.find? name = none)
    (hbuiltin : builtin? name = some value) (call : Caller) :
    m.step call name = m.execute call value name := by
  have hlookup : m.lookup? name = some (.of value) := by
    rw [State.lookup?, hdefined, hbuiltin]
    rfl
  rw [step_eq_ite, if_pos hname, executeName, hlookup]
  rfl

/-- A conditional that is taken comes to calling the code, when one identity has been
    given out. -/
theorem runList_taken {m : Machine} {code : List String} (hcode : Code code)
    (hlimit : m.settings.maxOperands = 0) (htrue : m.definitions.find? "true" = none)
    (hif : m.definitions.find? "if" = none) :
    m.runList (taken code)
      = (callerAt m.allowance "if" code { m with nextIdentity := m.nextIdentity + 1 }).after
          (.invoked .conditional) := by
  have hroom : ∀ s : State, s.hasRoom m.settings = true := State.hasRoom_of_unlimited hlimit
  -- The truth value is pushed, and then the code.
  let first : Machine := { m with operands := .of (.bool true) :: m.operands }
  let second : Machine :=
    { m with
      operands := .of (.procedure m.nextIdentity code) :: .of (.bool true) :: m.operands
      nextIdentity := m.nextIdentity + 1 }
  have hfirst : m.step (callerAt m.allowance) "true" = .done first := by
    rw [step_builtin (by decide +kernel) htrue rfl]
    change Run.ofChange m "true" (m.push? m.settings (.bool true)) = .done first
    rw [State.push?, if_pos (hroom m.toState)]
    rfl
  have hsecond : first.pushCaptured openBrace code = .done second := by
    unfold pushCaptured
    rw [State.pushProcedure?, if_pos (hroom first.toState)]
    rfl
  have hcapture : capture 0 (code ++ [closeBrace, "if"]) = .ok (code, ["if"]) :=
    capture_eq_ok_iff.mpr ⟨rfl, hcode.balanced⟩
  have hthird : second.step (callerAt m.allowance) "if"
      = (callerAt m.allowance "if" code { m with nextIdentity := m.nextIdentity + 1 }).after
          (.invoked .conditional) := by
    rw [step_builtin (m := second) (by decide +kernel) hif rfl]
    change (second.invoke (callerAt m.allowance) .conditional).after (.invoked .conditional) = _
    -- The two are taken off again.
    have htaken : second.takeCondition
        = .ok (some (.procedure m.nextIdentity code),
            { m.toState with nextIdentity := m.nextIdentity + 1 }) := rfl
    rw [invoke_conditional_of_some htaken]
    rfl
  unfold runList taken
  rw [runLexemes_of_done (by decide) hfirst, runLexemes_of_capture (by decide) hcapture, hsecond]
  change second.runLexemes (callerAt m.allowance) ["if"] = _
  rw [runLexemes, if_neg (by decide), Run.andThen_runLexemes_nil, hthird]

/-- Calling code one level deeper does what running it does, unless the limit on the
    nesting of procedures is reached. -/
theorem callerAt_eq_runList {m : Machine} {name : String} {code : List String}
    (h : ¬ (callerAt m.allowance name code m).NestsTooDeep) :
    (callerAt m.allowance name code m).fault? = (m.runList code).fault? ∧
      (callerAt m.allowance name code m).machine = (m.runList code).machine := by
  cases hallowance : m.allowance with
  | zero =>
      -- No further level is allowed, so the call is refused.
      rw [hallowance] at h
      exact absurd ⟨_, rfl, rfl⟩ h
  | succ level =>
      rw [hallowance] at h
      let deeper : Machine := { m with depth := m.depth + 1 }
      have hlevel : deeper.allowance = level := by
        have hless : deeper.allowance = (m.settings.maxDepth - (m.depth + 1 : Nat)).toNat := rfl
        unfold allowance at hallowance
        omega
      have hinner : deeper.runList code = deeper.runLexemes (callerAt level) code := by
        rw [runList, hlevel]
      have hdeeper : m.Deeper deeper := ⟨m.depth + 1, Nat.le_succ _, rfl⟩
      rcases deeper_simulation.agree_runFrom hdeeper (.list code) with
        ⟨report, hfault, hkind⟩ | ⟨hfault, depth, _, hmachine⟩
      · have hrun : (deeper.runList code).fault? = some (.report report) := hfault
        rw [hinner] at hrun
        exact absurd ⟨report, hrun, hkind⟩ h
      · have hfault' : (m.runList code).fault? = (deeper.runList code).fault? := hfault
        have hmachine' : (deeper.runList code).machine
            = { (m.runList code).machine with depth := depth } := hmachine
        have hdepth : (m.runList code).machine.depth = m.depth :=
          (sameLevel_runLexemes _ (callerAt_level _) code m).depth_eq
        rw [hinner] at hfault' hmachine'
        refine ⟨hfault'.symm, ?_⟩
        -- The level is put back, and running the code by itself has come back to it too.
        let inner := (deeper.runLexemes (callerAt level) code).machine
        change ({ inner with depth := m.depth } : Machine) = _
        rw [show inner = _ from hmachine', ← hdepth]

end Machine

/-- Code in a conditional that is taken, on a machine without a limit on its operands
    where the two names have what is built in and the next identity is above those in use,
    does what it does by itself if the limit on the nesting of procedures is not reached:
    it completes or fails in the same way, and leaves the same operands, brackets,
    definitions, graphics states and drawing, at the same level and the same place in the
    source. The identities given out are different numbers, with one of them left out. -/
theorem taken_conditional_transparent (m : Machine) (code : List String) (hcode : Code code)
    (hlimit : m.settings.maxOperands = 0) (htrue : m.definitions.find? "true" = none)
    (hif : m.definitions.find? "if" = none) (hnumbered : m.toState.Numbered)
    (hnesting : ¬ (m.runList (taken code)).NestsTooDeep) :
    (m.runList (taken code)).fault? = (m.runList code).fault? ∧
      (m.runList (taken code)).machine
        = (m.runList code).machine.rename (shift m.nextIdentity) := by
  rw [Machine.runList_taken hcode hlimit htrue hif] at hnesting ⊢
  -- The machine on which the code is called is this one under other identities.
  have hrenamed : ({ m with nextIdentity := m.nextIdentity + 1 } : Machine)
      = m.rename (shift m.nextIdentity) := by
    rw [Machine.rename, State.rename_shift hnumbered]
  have hrun : (m.rename (shift m.nextIdentity)).runList code
      = (m.runList code).rename (shift m.nextIdentity) :=
    Machine.runFrom_rename (shift_renaming hnumbered.builtin) (Nat.le_refl _) (.list code)
  rw [hrenamed] at hnesting ⊢
  rcases Machine.callerAt_eq_runList (m := m.rename (shift m.nextIdentity)) hnesting with
    ⟨hfault, hmachine⟩
  rw [hrun] at hfault hmachine
  exact ⟨hfault, hmachine⟩

/-- A machine that has received an array and the definition of a truth value, and has
    defined a procedure that makes another array. The code compares the two arrays, binds
    a second name to the object that it received, and defines and invokes a procedure that
    uses both. Other code fails in the middle of such a procedure, as it adds arrays. -/
theorem taken_conditional_transparent_arrays :
    let array : State := State.initial.receive [.array 0 [.bool true]]
    let received : Machine :=
      { Machine.start Settings.standard (.text "a b") with
        toState := array.receiveDefinition "h" (.bool false) }
    let m := (received.runList ["/f", openBrace, "[", "]", closeBrace, "def"]).machine
    let code := ["f", "eq", "not", "/k", "/h", "load", "def", "/g", openBrace, "f", "k", closeBrace,
      "def", "g"]
    let failing := ["f", "/g", openBrace, "f", "add", closeBrace, "def", "g"]
    (Code code ∧ ¬ (m.runList (taken code)).NestsTooDeep ∧
      Code failing ∧ ¬ (m.runList (taken failing)).NestsTooDeep) ∧
    (m.settings.maxOperands = 0 ∧ m.definitions.find? "true" = none ∧
      m.definitions.find? "if" = none ∧ m.toState.Numbered) ∧
    ((m.runList (taken code)).fault? = none ∧ (m.runList code).fault? = none ∧
      (m.runList (taken code)).machine
        = (m.runList code).machine.rename (shift m.nextIdentity)) ∧
    ((m.runList failing).fault?
        = some (.report ⟨.typeMismatch, some "add", some 0, none⟩) ∧
      (m.runList (taken failing)).fault? = (m.runList failing).fault? ∧
      (m.runList (taken failing)).machine
        = (m.runList failing).machine.rename (shift m.nextIdentity)) := by
  intro array received m code failing
  have hnumbered : m.toState.Numbered := by
    have hreceived : received.toState.Numbered :=
      State.numbered_receiveDefinition
        (State.numbered_receive State.numbered_initial [.array 0 [.bool true]]) "h" (.bool false)
    exact Machine.numbered_runFrom hreceived (.list _)
  -- One evaluation of the runs, as processes.
  have hend : let q := (Process.start received
        (.list ["/f", openBrace, "[", "]", closeBrace, "def"])).after 10
      let n := q.run.machine
      let p := (Process.start n (.list (taken code))).after 60
      let r := (Process.start n (.list failing)).after 30
      let t := (Process.start n (.list (taken failing))).after 40
      (q.tasks.isEmpty = true ∧ p.tasks.isEmpty = true ∧ r.tasks.isEmpty = true ∧
        t.tasks.isEmpty = true) ∧
      (n.settings.maxOperands = 0 ∧ (n.definitions.find? "true").isNone = true ∧
        (n.definitions.find? "if").isNone = true) ∧
      p.run.fault? = none ∧
      r.run.fault? = some (.report ⟨.typeMismatch, some "add", some 0, none⟩) ∧
      t.run.fault? = some (.report ⟨.typeMismatch, some "add", some 0, none⟩) := by decide +kernel
  rcases hend with ⟨⟨hq, hp, hr, ht⟩, ⟨hlimit, htrue, hif⟩, hnone, hfault, hfault'⟩
  have hrun : ∀ {n : Machine} {lexemes : List String} {k : Nat},
      ((Process.start n (.list lexemes)).after k).tasks.isEmpty = true →
      ((Process.start n (.list lexemes)).after k).run = n.runList lexemes :=
    fun h => (Process.runFrom_eq_of_tasks_nil (List.isEmpty_iff.mp h)).symm
  rw [hrun hq] at hlimit htrue hif hp hr ht hnone hfault hfault'
  rw [hrun hp] at hnone
  rw [hrun hr] at hfault
  rw [hrun ht] at hfault'
  have hcode : Code code := by decide +kernel
  have hcode' : Code failing := by decide +kernel
  have hnesting : ¬ (m.runList (taken code)).NestsTooDeep := by
    rintro ⟨report, hreport, _⟩
    rw [hnone] at hreport
    cases hreport
  have hnesting' : ¬ (m.runList (taken failing)).NestsTooDeep := by
    rintro ⟨report, hreport, hkind⟩
    rw [hfault', Option.some.injEq, Fault.report.injEq] at hreport
    rw [← hreport] at hkind
    cases hkind
  have htrue' : m.definitions.find? "true" = none := Option.isNone_iff_eq_none.mp htrue
  have hif' : m.definitions.find? "if" = none := Option.isNone_iff_eq_none.mp hif
  have hwhole := taken_conditional_transparent m code hcode hlimit htrue' hif' hnumbered hnesting
  have hstopped := taken_conditional_transparent m failing hcode' hlimit htrue' hif' hnumbered
    hnesting'
  exact ⟨⟨hcode, hnesting, hcode', hnesting'⟩, ⟨hlimit, htrue', hif', hnumbered⟩,
    ⟨hnone, hwhole.1.symm.trans hnone, hwhole.2⟩, hfault, hstopped⟩

end PathScript
