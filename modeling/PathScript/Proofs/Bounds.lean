import PathScript.Proofs.Invariant
import PathScript.Proofs.Operators
import PathScript.Proofs.Termination

/-!
# Limits Are Kept

No program gets past its limits: not while it runs, not inside a procedure,
and not in the state that a fault leaves behind.

There is no one place that guards the operand stack. Most operators take off at
least as much as they put on and do not look at the limit, and the others look
at it each in its own way. `State.GrowsWithin` says what they have in common:
a stack does not get higher, or it gets higher by one and had room for it.

A closing bracket fits in only after a second look, as it takes operands off
before it asks for room. The stack it asks room for is no higher than the one
it found.

## Main definitions

* `WithinLimit`: A stack whose height keeps to a limit.
* `State.GrowsWithin`: Stacks that get higher only where there is room.
* `Machine.WithinLimits`: A machine that keeps to all limits.
* `Operands.Shrinks`: Changes that do not make a stack higher.

## Theorems

* `Primitive.growsWithin_perform`: What operators do to the stacks.
* `withinLimits_invariant`: Keeping to the limits is an invariant.
* `limits_kept`: Every state a program passes through keeps to the limits, and
  the nesting level is put back after everything.
-/

namespace PathScript

/-- A stack whose height keeps to a limit. A limit of zero is none, and a negative
    one leaves room for nothing. -/
def WithinLimit (limit : Int) (height : Nat) : Prop := limit ≠ 0 → (height : Int) ≤ max limit 0

theorem withinLimit_zero (limit : Int) : WithinLimit limit 0 := by
  intro _
  omega

theorem withinLimit_of_le {limit : Int} {height lower : Nat} (h : WithinLimit limit height)
    (hle : lower ≤ height) : WithinLimit limit lower := by
  intro hon
  have hheight := h hon
  omega

/-- Where there is room for one more, one more keeps to the limit. -/
theorem withinLimit_succ {limit : Int} {height : Nat} (hroom : underLimit limit height = true) :
    WithinLimit limit (height + 1) := by
  intro hon
  simp only [underLimit, Bool.or_eq_true, beq_iff_eq, decide_eq_true_eq] at hroom
  rcases hroom with hoff | hlt
  · exact absurd hoff hon
  · omega

/-- A stack that does not get higher, or gets higher by one and had room for
    it. -/
def GrowsWithinLimit (limit : Int) (height height' : Nat) : Prop :=
  height' ≤ height ∨ (underLimit limit height = true ∧ height' = height + 1)

theorem withinLimit_of_grows {limit : Int} {height height' : Nat} (h : WithinLimit limit height)
    (hgrows : GrowsWithinLimit limit height height') : WithinLimit limit height' := by
  rcases hgrows with hle | ⟨hroom, rfl⟩
  · exact withinLimit_of_le h hle
  · exact withinLimit_succ hroom

/-- Both stacks of a state get higher only where there is room. -/
structure State.GrowsWithin (limits : Settings) (s s' : State) : Prop where
  operands : GrowsWithinLimit limits.maxOperands s.operands.length s'.operands.length
  saved : GrowsWithinLimit limits.maxSaved s.saved.length s'.saved.length

/-- A change of the operands that does not make the stack higher. -/
def Operands.Shrinks (change : List Cell → Except Complaint (List Cell)) : Prop :=
  ∀ {operands result : List Cell}, change operands = .ok result →
    result.length ≤ operands.length

namespace Operands

theorem shrinks_arithmetic (operation : Binary64 → Binary64 → Binary64) :
    Shrinks (arithmetic operation) := by
  intro operands result h
  rcases arithmetic_eq_ok_iff.mp h with ⟨x, y, object, other, rest, rfl, _, rfl⟩
  simp only [List.length_cons]
  omega

theorem shrinks_divide : Shrinks divide :=
  fun h => shrinks_arithmetic Binary64.div (divide_eq_ok_iff.mp h).2

theorem shrinks_negate : Shrinks negate := by
  intro operands result h
  rcases negate_eq_ok_iff.mp h with ⟨x, object, rest, rfl, rfl⟩
  exact Nat.le_refl _

theorem shrinks_sameness (answer : Bool → Bool) : Shrinks (sameness answer) := by
  intro operands result h
  rcases sameness_eq_ok_iff.mp h with ⟨x, y, rest, rfl, rfl⟩
  simp only [List.length_cons]
  omega

theorem shrinks_comparison (relation : Binary64 → Binary64 → Bool) :
    Shrinks (comparison relation) := by
  intro operands result h
  rcases comparison_eq_ok_iff.mp h with ⟨x, y, object, other, rest, rfl, rfl⟩
  simp only [List.length_cons]
  omega

theorem shrinks_complement : Shrinks complement := by
  intro operands result h
  rcases complement_eq_ok_iff.mp h with ⟨b, object, rest, rfl, rfl⟩
  exact Nat.le_refl _

theorem shrinks_exchange : Shrinks exchange := by
  intro operands result h
  rcases exchange_eq_ok_iff.mp h with ⟨x, y, rest, rfl, rfl⟩
  exact Nat.le_refl _

theorem shrinks_drop : Shrinks drop := by
  intro operands result h
  rcases drop_eq_ok_iff.mp h with ⟨cell, rfl⟩
  simp only [List.length_cons]
  omega

theorem length_rotate {α : Type} (count : Nat) (items : List α) :
    (rotate count items).length = items.length := by
  simp only [rotate, List.length_append, List.length_drop, List.length_take]
  omega

theorem shrinks_roll : Shrinks roll := by
  intro operands result h
  rcases roll_eq_ok_iff.mp h with ⟨x, y, object, other, rest, n, j, rfl, _, _, _, _, rfl⟩
  simp only [List.length_append, length_rotate, List.length_take, List.length_drop,
    List.length_cons]
  omega

end Operands

namespace State

variable {limits : Settings} {s s' : State}

/-- An operator that takes operands off and leaves the saved states alone. -/
theorem growsWithin_of_le (hoperands : s'.operands.length ≤ s.operands.length)
    (hsaved : s'.saved = s.saved) : s.GrowsWithin limits s' :=
  ⟨Or.inl hoperands, Or.inl (Nat.le_of_eq (by rw [hsaved]))⟩

/-- An operator that takes some operands off and puts nothing on. -/
theorem growsWithin_of_taken (taken : List Cell)
    (hoperands : s.operands = taken ++ s'.operands) (hsaved : s'.saved = s.saved) :
    s.GrowsWithin limits s' := by
  refine growsWithin_of_le ?_ hsaved
  rw [hoperands, List.length_append]
  omega

theorem growsWithin_onOperands {change : List Cell → Except Complaint (List Cell)}
    (hshrinks : Operands.Shrinks change) (h : s.onOperands change = .ok s') :
    s.GrowsWithin limits s' := by
  rcases onOperands_eq_ok_iff.mp h with ⟨operands, hchange, rfl⟩
  exact growsWithin_of_le (hshrinks hchange) rfl

/-- One more operand, where there is room. -/
theorem growsWithin_of_hasRoom (hroom : s.hasRoom limits = true)
    (hoperands : s'.operands.length = s.operands.length + 1) (hsaved : s'.saved = s.saved) :
    s.GrowsWithin limits s' :=
  ⟨Or.inr ⟨hroom, hoperands⟩, Or.inl (Nat.le_of_eq (by rw [hsaved]))⟩

theorem growsWithin_push? {value : Value} (h : s.push? limits value = .ok s') :
    s.GrowsWithin limits s' := by
  rcases push?_eq_ok_iff.mp h with ⟨hroom, rfl⟩
  exact growsWithin_of_hasRoom hroom rfl rfl

end State

/-- What operators do to the stacks. -/
theorem Primitive.growsWithin_perform {limits : Settings} {p : Primitive} {s s' : State}
    (h : p.perform limits s = .ok s') : s.GrowsWithin limits s' := by
  cases p with
  | setgray =>
      rcases State.dropGray_eq_ok_iff.mp h with ⟨x, object, rest, hoperands, rfl⟩
      exact State.growsWithin_of_taken [_] hoperands rfl
  | setrgbcolor =>
      rcases State.dropColor_eq_ok_iff.mp h with ⟨x, y, z, a, b, c, rest, hoperands, rfl⟩
      exact State.growsWithin_of_taken [_, _, _] hoperands rfl
  | closepath =>
      rw [← Except.ok.inj h]
      unfold State.closePath
      split <;> exact State.growsWithin_of_le (Nat.le_refl _) rfl
  | curveto =>
      rcases State.curveTo_eq_ok_iff.mp h with
        ⟨_, _, _, _, _, _, _, _, _, _, _, _, rest, _, _, _, hoperands, _, _, _, rfl⟩
      exact State.growsWithin_of_taken [_, _, _, _, _, _] hoperands rfl
  | lineto =>
      rcases State.lineTo_eq_ok_iff.mp h with ⟨x, y, object, other, rest, p, hoperands, _, rfl⟩
      exact State.growsWithin_of_taken [_, _] hoperands rfl
  | moveto =>
      rcases State.moveTo_eq_ok_iff.mp h with ⟨x, y, object, other, rest, p, hoperands, _, rfl⟩
      exact State.growsWithin_of_taken [_, _] hoperands rfl
  | add => exact State.growsWithin_onOperands (Operands.shrinks_arithmetic _) h
  | div => exact State.growsWithin_onOperands Operands.shrinks_divide h
  | mul => exact State.growsWithin_onOperands (Operands.shrinks_arithmetic _) h
  | neg => exact State.growsWithin_onOperands Operands.shrinks_negate h
  | sub => exact State.growsWithin_onOperands (Operands.shrinks_arithmetic _) h
  | eq => exact State.growsWithin_onOperands (Operands.shrinks_sameness _) h
  | ge => exact State.growsWithin_onOperands (Operands.shrinks_comparison _) h
  | gt => exact State.growsWithin_onOperands (Operands.shrinks_comparison _) h
  | le => exact State.growsWithin_onOperands (Operands.shrinks_comparison _) h
  | lt => exact State.growsWithin_onOperands (Operands.shrinks_comparison _) h
  | ne => exact State.growsWithin_onOperands (Operands.shrinks_sameness _) h
  | not => exact State.growsWithin_onOperands Operands.shrinks_complement h
  | clear =>
      rw [← Except.ok.inj h]
      exact State.growsWithin_of_le (Nat.zero_le _) rfl
  | count => exact State.growsWithin_push? h
  | dup =>
      rcases State.duplicate_eq_ok_iff.mp h with ⟨cell, rest, _, hroom, rfl⟩
      exact State.growsWithin_of_hasRoom hroom rfl rfl
  | exch => exact State.growsWithin_onOperands Operands.shrinks_exchange h
  | pop => exact State.growsWithin_onOperands Operands.shrinks_drop h
  | roll => exact State.growsWithin_onOperands Operands.shrinks_roll h
  | concat =>
      rcases State.concatenate_eq_ok_iff.mp h with
        ⟨identity, items, object, rest, m, ctm, hoperands, _, _, _, rfl⟩
      exact State.growsWithin_of_taken [_] hoperands rfl
  | matrix =>
      rcases State.pushIdentity_eq_ok_iff.mp h with ⟨hroom, rfl⟩
      exact State.growsWithin_of_hasRoom hroom rfl rfl
  | grestore =>
      rcases State.restore_eq_ok_iff.mp h with ⟨g, saved, hsaved, rfl⟩
      refine ⟨Or.inl (Nat.le_refl _), Or.inl ?_⟩
      rw [hsaved]
      exact Nat.le_succ _
  | gsave =>
      rcases State.save_eq_ok_iff.mp h with ⟨hroom, rfl⟩
      exact ⟨Or.inl (Nat.le_refl _), Or.inr ⟨hroom, rfl⟩⟩
  | setlinecap =>
      rcases State.setLineCap_eq_ok_iff.mp h with ⟨x, object, rest, cap, hoperands, _, rfl⟩
      exact State.growsWithin_of_taken [_] hoperands rfl
  | setlinejoin =>
      rcases State.setLineJoin_eq_ok_iff.mp h with ⟨x, object, rest, join, hoperands, _, rfl⟩
      exact State.growsWithin_of_taken [_] hoperands rfl
  | setlinewidth =>
      rcases State.setLineWidth_eq_ok_iff.mp h with ⟨x, object, rest, hoperands, rfl⟩
      exact State.growsWithin_of_taken [_] hoperands rfl
  | setmiterlimit =>
      rcases State.setMiterLimit_eq_ok_iff.mp h with ⟨x, object, rest, hoperands, _, rfl⟩
      exact State.growsWithin_of_taken [_] hoperands rfl
  | define =>
      rcases State.define_eq_ok_iff.mp h with ⟨cell, key, object, rest, hoperands, rfl⟩
      split <;> exact State.growsWithin_of_taken [_, _] hoperands rfl
  | load =>
      rcases State.load_eq_ok_iff.mp h with ⟨key, object, rest, cell, hoperands, _, rfl⟩
      refine State.growsWithin_of_le ?_ rfl
      rw [hoperands]
      exact Nat.le_refl _
  | newpath | clip | eofill | fill | stroke | length | bind =>
      rw [← Except.ok.inj h]
      exact State.growsWithin_of_le (Nat.le_refl _) rfl

/-- A machine that keeps to all limits. -/
structure Machine.WithinLimits (limits : Settings) (m : Machine) : Prop where
  operands : WithinLimit limits.maxOperands m.operands.length
  saved : WithinLimit limits.maxSaved m.saved.length
  depth : (m.depth : Int) ≤ max limits.maxDepth 0

namespace Machine

variable {limits : Settings} {m : Machine}

theorem withinLimits_of_grows (h : m.WithinLimits limits) {s : State}
    (hgrows : m.GrowsWithin limits s) :
    WithinLimits limits { m with toState := s } :=
  ⟨withinLimit_of_grows h.operands hgrows.operands, withinLimit_of_grows h.saved hgrows.saved,
    h.depth⟩

/-- A closing bracket asks for room on a stack that is no higher than the one it
    found, and puts one value on it. -/
theorem withinLimits_closeArray (h : m.WithinLimits limits) (hsettings : m.settings = limits) :
    m.closeArray.machine.WithinLimits limits := by
  rcases hmarks : m.marks with _ | ⟨height, marks⟩
  · rw [closeArray_of_nil hmarks]
    exact h
  · rcases Nat.lt_or_ge m.operands.length height with hlt | hle
    · rw [closeArray_of_lt hmarks hlt]
      exact ⟨h.operands, h.saved, h.depth⟩
    · rw [closeArray_of_le hmarks hle]
      -- Without room the operands are off the stack all the same.
      have hlower : (m.cleared height marks).operands.length ≤ m.operands.length := by
        simp only [cleared, List.length_drop]
        omega
      split
      · next hroom =>
          rw [hsettings] at hroom
          exact ⟨withinLimit_succ hroom, h.saved, h.depth⟩
      · exact ⟨withinLimit_of_le h.operands hlower, h.saved, h.depth⟩

end Machine

/-- Keeping to the limits that are set is an invariant, whatever is executed and
    whatever is run. -/
theorem withinLimits_invariant (limits : Settings) :
    Invariant (fun _ _ => True) (fun m => m.settings = limits ∧ m.WithinLimits limits)
      (fun _ => True) (fun _ => True) where
  name := fun _ => trivial
  real := fun _ _ => trivial
  literal := fun _ => trivial
  procedure := fun _ => trivial
  lookup := fun _ _ => trivial
  nil := trivial
  tail := fun _ _ => trivial
  capture := fun _ _ _ => ⟨fun _ => trivial, trivial⟩
  captureInput := fun _ _ _ _ => trivial
  next := fun h _ => ⟨h.1, h.2.operands, h.2.saved, h.2.depth⟩
  readBody := fun h _ => ⟨h.1, h.2.operands, h.2.saved, h.2.depth⟩
  skip := fun h _ => ⟨h.1, h.2.operands, h.2.saved, h.2.depth⟩
  push := by
    rintro m value s ⟨hsettings, h⟩ _ hpush
    rw [hsettings] at hpush
    exact ⟨hsettings, Machine.withinLimits_of_grows h (State.growsWithin_push? hpush)⟩
  pushProcedure := by
    rintro m body s ⟨hsettings, h⟩ _ hpush
    rw [hsettings] at hpush
    rcases State.pushProcedure?_eq_ok_iff.mp hpush with ⟨hroom, rfl⟩
    exact ⟨hsettings, Machine.withinLimits_of_grows h (State.growsWithin_of_hasRoom hroom rfl rfl)⟩
  openArray := fun h => ⟨h.1, h.2.operands, h.2.saved, h.2.depth⟩
  closeArray := by
    rintro m ⟨hsettings, h⟩
    refine ⟨?_, Machine.withinLimits_closeArray h hsettings⟩
    rw [(Machine.sameLevel_closeArray m).settings_eq, hsettings]
  perform := by
    rintro m p s ⟨hsettings, h⟩ _ hperform
    rw [hsettings] at hperform
    exact ⟨hsettings, Machine.withinLimits_of_grows h (Primitive.growsWithin_perform hperform)⟩
  dropOperand := by
    rintro m cell rest ⟨hsettings, h⟩ hoperands
    refine ⟨hsettings, withinLimit_of_le h.operands ?_, h.saved, h.depth⟩
    rw [hoperands]
    exact Nat.le_succ _
  condition := by
    rintro m target s ⟨hsettings, h⟩ hcondition
    rcases State.takeCondition_eq_ok_iff.mp hcondition with
      ⟨value, object, b, other, rest, hoperands, _, _, rfl⟩
    have htaken : m.GrowsWithin limits { m.toState with operands := rest } :=
      State.growsWithin_of_taken [_, _] hoperands rfl
    exact ⟨⟨hsettings, Machine.withinLimits_of_grows h htaken⟩, fun _ _ => trivial⟩
  enter := by
    rintro m ⟨hsettings, h⟩ hdepth
    rw [hsettings] at hdepth
    refine ⟨hsettings, h.operands, h.saved, ?_⟩
    simp only
    omega
  leave := by
    rintro m ⟨hsettings, h⟩
    refine ⟨hsettings, h.operands, h.saved, ?_⟩
    have hdepth := h.depth
    simp only [Machine.leave]
    omega

/-- Every state that a program passes through keeps to the limits. -/
theorem withinLimits_after (settings : Settings) (source : Source) (supply : Supply) (n : Nat) :
    ((Process.start (.start settings source) supply).after n).run.machine.WithinLimits
      settings := by
  have hstart : (Machine.start settings source).WithinLimits settings :=
    ⟨withinLimit_zero _, withinLimit_zero _, Int.le_max_right _ _⟩
  have hsound := (withinLimits_invariant settings).sound_after
    (p := Process.start (.start settings source) supply)
    (Invariant.sound_singleton ⟨rfl, hstart⟩ (by cases supply <;> trivial)) n
    fun _ _ _ _ => trivial
  exact hsound.machine.2

/-- Every state that a program passes through from a fresh start keeps to the limits,
    inside procedures as well as outside and after a fault as well as before, and
    the state that a run ends in is one of those it passes through. Running lexemes
    and executing a value put the nesting level back, from whatever machine and
    whether or not they end in a fault. -/
theorem limits_kept :
    (∀ (settings : Settings) (source : Source) (supply : Supply) (n : Nat),
      let m := ((Process.start (.start settings source) supply).after n).run.machine
      (settings.maxOperands ≠ 0 → (m.operands.length : Int) ≤ max settings.maxOperands 0) ∧
      (settings.maxSaved ≠ 0 → (m.saved.length : Int) ≤ max settings.maxSaved 0) ∧
      (m.depth : Int) ≤ max settings.maxDepth 0) ∧
    (∀ (m : Machine) (supply : Supply), ∃ n,
      (Process.start m supply).after n = .finished (m.runFrom supply)) ∧
    (∀ (m : Machine) (supply : Supply), (m.runFrom supply).machine.depth = m.depth) ∧
    (∀ (m : Machine) (level : Nat) (lexemes : List String),
      (m.runLexemes (callerAt level) lexemes).machine.depth = m.depth) ∧
    (∀ (m : Machine) (level : Nat) (value : Value) (name : String),
      (m.execute (callerAt level) value name).machine.depth = m.depth) := by
  refine ⟨?_, Process.reaches_runFrom, ?_, ?_, ?_⟩
  · intro settings source supply n
    have hwithin := withinLimits_after settings source supply n
    exact ⟨hwithin.operands, hwithin.saved, hwithin.depth⟩
  · intro m supply
    cases supply with
    | list lexemes => exact (m.sameLevel_runLexemes _ (callerAt_level _) lexemes).depth_eq
    | input => exact m.sameLevel_runInput.depth_eq
  · intro m level lexemes
    exact (Machine.sameLevel_runLexemes _ (callerAt_level level) lexemes m).depth_eq
  · intro m level value name
    exact (Machine.sameLevel_execute _ (callerAt_level level) value name m).depth_eq

end PathScript
