import PathScript.Proofs.Construction

/-!
# Identities Are Given Out in Order

The next identity is above all that are in use. A step gives out one identity at most,
which is that number, and the number then goes up by one. Nothing ever makes it go
down, so an identity that has been given out is never given out again.

This holds of every state that a caller can bring about: of the one a program starts
in, after any run, and after values have come from outside, which are given identities
of their own.

## Main definitions

* `Process.Numbered`, `State.Numbered`: The identities in use are below the next one.
* `Value.Below`: The identities inside a value are below a number.

## Theorems

* `Process.nextIdentity_le_after`: The next identity never goes down.
* `Process.numbered_after`, `Machine.numbered_runFrom`: Identities in use stay below the
  next one.
* `State.numbered_receive`, `State.numbered_receiveDefinition`: So they do when values
  come from outside.
-/

namespace PathScript

/-- The literal procedures that are built in have the identities that are set apart. -/
theorem Value.IsBuiltin.lt {v : Value} {i : Identity} (h : v.IsBuiltin)
    (hi : v.identity? = some i) : i < builtinIdentities := by
  rcases h with ⟨b, rfl⟩
  rw [← Option.some.inj hi]
  cases b with
  | true => decide
  | false => decide

namespace Process

/-- Identities are given out in order. -/
theorem nextIdentity_le_step (p : Process) :
    p.run.machine.nextIdentity ≤ p.step.run.machine.nextIdentity := by
  cases p.outcome_step with
  | moves _ hnext _ => exact Nat.le_of_eq hnext.symm
  | makes _ _ hnext _ _ _ =>
      rw [hnext]
      exact Nat.le_succ _

theorem nextIdentity_le_after (p : Process) (n : Nat) :
    p.run.machine.nextIdentity ≤ (p.after n).run.machine.nextIdentity := by
  induction n with
  | zero => exact Nat.le_refl _
  | succ n ih =>
      rw [after_succ]
      exact Nat.le_trans ih (nextIdentity_le_step _)

/-- Every identity in use, or built in, is below the next one. -/
structure Numbered (p : Process) : Prop where
  builtin : builtinIdentities ≤ p.run.machine.nextIdentity
  below : ∀ {v : Value} {i : Identity}, v.identity? = some i → p.Bears v →
    i < p.run.machine.nextIdentity

theorem Numbered.lt {p : Process} (h : p.Numbered) {v : Value} {i : Identity}
    (hi : v.identity? = some i) (hv : p.Bears v ∨ v.IsBuiltin) :
    i < p.run.machine.nextIdentity := by
  rcases hv with hv | hv
  · exact h.below hi hv
  · exact Nat.lt_of_lt_of_le (hv.lt hi) h.builtin

/-- A step keeps the identities in use below the next one. -/
theorem numbered_step {p : Process} (h : p.Numbered) : p.step.Numbered := by
  refine ⟨Nat.le_trans h.builtin p.nextIdentity_le_step, fun {v i} hi hv => ?_⟩
  cases p.outcome_step with
  | moves _ hnext hmoved =>
      rw [hnext]
      exact h.lt hi (hmoved hi hv)
  | makes u hu hnext hmade _ _ =>
      rw [hnext]
      rcases hmade hi hv with hold | rfl
      · exact Nat.lt_succ_of_lt (h.below hi hold)
      · rw [← Option.some.inj (hu.symm.trans hi)]
        exact Nat.lt_succ_self _

theorem numbered_after {p : Process} (h : p.Numbered) (n : Nat) : (p.after n).Numbered := by
  induction n with
  | zero => exact h
  | succ n ih =>
      rw [after_succ]
      exact numbered_step ih

end Process

/-- Every identity in a state, or built in, is below the next one. -/
structure State.Numbered (s : State) : Prop where
  builtin : builtinIdentities ≤ s.nextIdentity
  below : ∀ {v : Value} {i : Identity}, v.identity? = some i → s.Bears v → i < s.nextIdentity

/-- There is nothing in the state that a program starts in. -/
theorem State.not_bears_initial (v : Value) : ¬ State.initial.Bears v := by
  rintro (⟨cell, hmem, _⟩ | ⟨entry, hmem, _⟩)
  · exact absurd hmem List.not_mem_nil
  · exact absurd hmem List.not_mem_nil

theorem State.numbered_initial : State.initial.Numbered :=
  ⟨Nat.le_refl _, fun _ hv => absurd hv (not_bears_initial _)⟩

/-- All that there is at the start of a process is on its machine. -/
theorem Process.bears_start {m : Machine} {supply : Supply} {v : Value}
    (h : (Process.start m supply).Bears v) : m.Bears v := by
  rcases h with h | ⟨task, hmem, hv⟩
  · exact h
  · rw [List.mem_singleton.mp hmem] at hv
    exact False.elim hv

/-- Running a program keeps the identities in a state below the next one. -/
theorem Machine.numbered_runFrom {m : Machine} (h : m.toState.Numbered) (supply : Supply) :
    (m.runFrom supply).machine.toState.Numbered := by
  have hstart : (Process.start m supply).Numbered :=
    ⟨h.builtin, fun hi hv => h.below hi (Process.bears_start hv)⟩
  rcases Process.reaches_runFrom m supply with ⟨n, hn⟩
  have hend := Process.numbered_after hstart n
  rw [hn] at hend
  exact ⟨hend.builtin, fun hi hv => hend.below hi (Or.inl hv)⟩

namespace Value

/-- Values whose identities, and those inside, are below a number. -/
def Below (next : Identity) (value : Value) : Prop :=
  ∀ {w : Value} {i : Identity}, w.identity? = some i → w.OccursIn value → i < next

theorem Below.mono {next next' : Identity} {value : Value} (h : value.Below next)
    (hle : next ≤ next') : value.Below next' :=
  fun hi hocc => Nat.lt_of_lt_of_le (h hi hocc) hle

/-- Values with identities of their own, if each is given those from the next one on. -/
theorem below_refreshAll {values : List Value}
    (h : ∀ value ∈ values, ∀ next,
      next ≤ (value.refresh next).2 ∧ (value.refresh next).1.Below (value.refresh next).2)
    (next : Identity) :
    next ≤ (refreshAll next values).2 ∧
      ∀ fresh ∈ (refreshAll next values).1, fresh.Below (refreshAll next values).2 := by
  induction values generalizing next with
  | nil => exact ⟨Nat.le_refl _, List.forall_mem_nil _⟩
  | cons value values ih =>
      have hrest := ih fun other hmem => h other (List.mem_cons_of_mem _ hmem)
      rcases h value List.mem_cons_self next with ⟨hle, hbelow⟩
      rcases hrest (value.refresh next).2 with ⟨hle', hbelow'⟩
      rw [refreshAll]
      refine ⟨Nat.le_trans hle hle', fun fresh hmem => ?_⟩
      rcases List.mem_cons.mp hmem with rfl | hmem
      · exact hbelow.mono hle'
      · exact hbelow' fresh hmem

/-- A value from outside gets identities from the next one on. -/
theorem below_refresh (value : Value) (next : Identity) :
    next ≤ (value.refresh next).2 ∧ (value.refresh next).1.Below (value.refresh next).2 := by
  induction value using nested_induction generalizing next with
  | array identity items ih =>
      rcases below_refreshAll ih next with ⟨hle, hbelow⟩
      rw [refresh]
      refine ⟨Nat.le_succ_of_le hle, fun {w i} hi hocc => ?_⟩
      cases hocc with
      | self =>
          rw [← Option.some.inj hi]
          exact Nat.lt_succ_self _
      | item hmem hitem => exact Nat.lt_succ_of_lt (hbelow _ hmem hi hitem)
  | procedure identity body =>
      rw [refresh]
      refine ⟨Nat.le_succ _, fun {w i} hi hocc => ?_⟩
      cases hocc with
      | self =>
          rw [← Option.some.inj hi]
          exact Nat.lt_succ_self _
  | literal identity inner ih =>
      rcases ih next with ⟨hle, hbelow⟩
      rw [refresh]
      refine ⟨Nat.le_succ_of_le hle, fun {w i} hi hocc => ?_⟩
      cases hocc with
      | self =>
          rw [← Option.some.inj hi]
          exact Nat.lt_succ_self _
      | wrapped hinner => exact Nat.lt_succ_of_lt (hbelow hi hinner)
  | _ => exact ⟨Nat.le_refl _, fun hi hocc => absurd hocc (not_occursIn_of_none hi rfl)⟩

end Value

namespace State

variable {s : State} (h : s.Numbered)
include h

/-- Operands from outside get identities that are not in use. -/
theorem numbered_receive (values : List Value) : (s.receive values).Numbered := by
  rcases Value.below_refreshAll (fun value _ => value.below_refresh) s.nextIdentity with
    ⟨hle, hbelow⟩
  refine ⟨Nat.le_trans h.builtin hle, fun {v i} hi hv => ?_⟩
  rcases hv with ⟨cell, hmem, hcell⟩ | hentry
  · rcases List.mem_append.mp hmem with hnew | hold
    · rcases List.mem_map.mp hnew with ⟨fresh, hfresh, rfl⟩
      exact hbelow fresh (List.mem_reverse.mp hfresh) hi (Cell.bears_of.mp hcell)
    · exact Nat.lt_of_lt_of_le (h.below hi (Or.inl ⟨cell, hold, hcell⟩)) hle
  · exact Nat.lt_of_lt_of_le (h.below hi (Or.inr hentry)) hle

/-- A definition from outside gets identities that are not in use, and so does the
    object that the name is bound to. -/
theorem numbered_receiveDefinition (key : String) (value : Value) :
    (s.receiveDefinition key value).Numbered := by
  rcases value.below_refresh s.nextIdentity with ⟨hle, hbelow⟩
  refine ⟨Nat.le_succ_of_le (Nat.le_trans h.builtin hle), fun {v i} hi hv => ?_⟩
  have hearlier : s.Bears v → i < (value.refresh s.nextIdentity).2 + 1 :=
    fun hold => Nat.lt_succ_of_lt (Nat.lt_of_lt_of_le (h.below hi hold) hle)
  rcases hv with hcell | ⟨entry, hmem, hentry⟩
  · exact hearlier (Or.inl hcell)
  · rcases Dictionary.mem_entries_insert hmem with rfl | hold
    · rcases hentry with hocc | ⟨object, hobject, rfl⟩
      · exact Nat.lt_succ_of_lt (hbelow hi hocc)
      · rw [← Option.some.inj hi, ← Option.some.inj hobject]
        exact Nat.lt_succ_self _
    · exact hearlier (Or.inr ⟨entry, hold, hentry⟩)

end State

end PathScript
