import PathScript.Proofs.Numbering
import PathScript.Proofs.WellDrawn

/-!
# Comparing by Identity

Programs compare arrays, procedures and literal procedures by their identities and
never look inside. This is sound: what has one identity is one value, wherever it has
got to since it was made, so values that compare as the same are equal in what they
hold. It is also exact: an array or a procedure that a program holds was made by one
step of its run, and what another step makes has another identity. Procedures with an
empty body are the exception, as all of them compare as the same.

The invariant behind it is that no two values in use, those built in included, have one
identity. A step makes one value at most and gives it the next identity, and all those
in use are below it, so the step keeps to the invariant.

## Main definitions

* `Process.Coherent`: The invariant.
* `Process.constructed?`: The array or procedure that the next step makes.
* `Cell.Compares`: What the operator answers that compares two values.
* `Cell.MatchesCopy`: A value that is the same as a copy of it.

## Theorems

* `Process.coherent_after`: The invariant holds all along.
* `Process.exists_constructed`: Every array and every procedure was made by some step.
* `Process.identity_of_constructed`: What a step makes gets the next identity.
* `Cell.compares_iff`: The operator compares identities.
* `comparison_sound`: Comparing by identity is sound and exact.
-/

namespace PathScript

namespace Value

/-- Whether a value is an array or a procedure. -/
def isConstructed : Value → Bool
  | .array _ _ => true
  | .procedure _ _ => true
  | _ => false

/-- Whether a value is a procedure with an empty body. -/
def isEmptyProcedure : Value → Bool
  | .procedure _ body => body.isEmpty
  | _ => false

/-- The literal procedures that are built in have different identities. -/
theorem IsBuiltin.eq_of_identity {v w : Value} {i : Identity} (hv : v.IsBuiltin) (hw : w.IsBuiltin)
    (hi : v.identity? = some i) (hj : w.identity? = some i) : v = w := by
  rcases hv with ⟨b, rfl⟩
  rcases hw with ⟨c, rfl⟩
  have hinjective : ∀ b c, builtinIdentity b = builtinIdentity c → b = c := by decide
  rw [hinjective b c (Option.some.inj (hi.trans hj.symm))]

end Value

namespace Process

/-- Every identity in use, or built in, is below the next one and the identity of one
    value. -/
structure Coherent (p : Process) : Prop extends Numbered p where
  one : ∀ {v w : Value} {i : Identity}, v.identity? = some i → w.identity? = some i →
    p.Bears v ∨ v.IsBuiltin → p.Bears w ∨ w.IsBuiltin → v = w

/-- A step keeps to the invariant, as what it makes gets an identity that is not in
    use. -/
theorem coherent_step {p : Process} (h : p.Coherent) : p.step.Coherent := by
  refine ⟨numbered_step h.toNumbered, fun {v w i} hi hj hv hw => ?_⟩
  cases p.outcome_step with
  | moves _ _ hmoved =>
      have hknown : ∀ {v : Value} {i : Identity}, v.identity? = some i →
          p.step.Bears v ∨ v.IsBuiltin → p.Bears v ∨ v.IsBuiltin := by
        rintro v i hi (hv | hv)
        · exact hmoved hi hv
        · exact Or.inr hv
      exact h.one hi hj (hknown hi hv) (hknown hj hw)
  | makes u hu _ hmade _ _ =>
      have hknown : ∀ {v : Value} {i : Identity}, v.identity? = some i →
          p.step.Bears v ∨ v.IsBuiltin → (p.Bears v ∨ v.IsBuiltin) ∨ v = u := by
        rintro v i hi (hv | hv)
        · exact (hmade hi hv).imp_left Or.inl
        · exact Or.inl (Or.inr hv)
      -- The new value has the next identity, and nothing that was there has it.
      have hfresh : ∀ {v : Value}, v.identity? = u.identity? → ¬ (p.Bears v ∨ v.IsBuiltin) :=
        fun hi hv => Nat.lt_irrefl _ (h.lt (hi.trans hu) hv)
      rcases hknown hi hv with hv | rfl
      · rcases hknown hj hw with hw | rfl
        · exact h.one hi hj hv hw
        · exact absurd hv (hfresh (hi.trans hj.symm))
      · rcases hknown hj hw with hw | rfl
        · exact absurd hw (hfresh (hj.trans hi.symm))
        · rfl

theorem coherent_after {p : Process} (h : p.Coherent) (n : Nat) : (p.after n).Coherent := by
  induction n with
  | zero => exact h
  | succ n ih =>
      rw [after_succ]
      exact coherent_step ih

/-- There are no values at the start. -/
theorem not_bears_start (settings : Settings) (source : Source) (supply : Supply) (v : Value) :
    ¬ (Process.start (.start settings source) supply).Bears v :=
  fun h => State.not_bears_initial v (bears_start h)

/-- A machine that has done nothing yet has no identities in use. -/
theorem coherent_start (settings : Settings) (source : Source) (supply : Supply) :
    (Process.start (.start settings source) supply).Coherent := by
  have hnothing := not_bears_start settings source supply
  refine ⟨⟨Nat.le_refl _, fun _ hv => absurd hv (hnothing _)⟩, fun hi hj hv hw => ?_⟩
  exact (hv.resolve_left (hnothing _)).eq_of_identity (hw.resolve_left (hnothing _)) hi hj

/-- The array or procedure that the next step makes: what a closing bracket, an open
    brace or the operator that makes a map leaves on top of the stack if it completes. -/
def constructed? (p : Process) : Option Value :=
  if p.constructing && p.step.run.fault?.isNone then
    p.step.run.machine.operands.head?.map (·.value)
  else none

/-- What a step makes gets the next identity. -/
theorem identity_of_constructed {p : Process} {v : Value} (h : p.constructed? = some v) :
    v.identity? = some p.run.machine.nextIdentity ∧
      p.step.run.machine.nextIdentity = p.run.machine.nextIdentity + 1 := by
  unfold constructed? at h
  split at h
  · next hcompletes =>
      rw [Bool.and_eq_true, Option.isNone_iff_eq_none] at hcompletes
      -- A step that constructs and makes nothing has failed.
      cases p.outcome_step with
      | moves hfaulty _ _ => exact absurd hcompletes.2 (hfaulty hcompletes.1)
      | makes u hu hnext _ htop _ =>
          rw [(htop hcompletes.1).2] at h
          rw [← Option.some.inj h]
          exact ⟨hu, hnext⟩
  · cases h

/-- What a step makes has an identity below those that later steps give out. -/
theorem identity_lt_of_constructed {p : Process} {j k : Nat} {v w : Value} (hjk : j < k)
    (hv : (p.after j).constructed? = some v) (hw : (p.after k).constructed? = some w) :
    ∃ a b, v.identity? = some a ∧ w.identity? = some b ∧ a < b := by
  rcases identity_of_constructed hv with ⟨ha, hnext⟩
  rcases identity_of_constructed hw with ⟨hb, _⟩
  refine ⟨_, _, ha, hb, ?_⟩
  -- The identity given out first is below the next one from then on.
  have hlater := nextIdentity_le_after (p.after (j + 1)) (k - (j + 1))
  rw [← after_add, Nat.add_sub_cancel' hjk, after_succ, hnext] at hlater
  exact hlater

/-- Every array and every procedure that there is was there from the start or was made
    by some step. -/
theorem exists_constructed {p : Process} {v : Value} (hv : v.isConstructed = true)
    (hstart : ¬ p.Bears v) {n : Nat} (h : (p.after n).Bears v) :
    ∃ k < n, (p.after k).constructed? = some v := by
  have hidentity : ∃ i, v.identity? = some i := by
    cases v with
    | array i items => exact ⟨i, rfl⟩
    | procedure i body => exact ⟨i, rfl⟩
    | _ => cases hv
  have hliteral : ∀ i inner, v ≠ .literal i inner := by
    rintro i inner rfl
    cases hv
  rcases hidentity with ⟨i, hi⟩
  -- By induction on the steps: the last one made the value, or it was there before.
  induction n with
  | zero => exact absurd h hstart
  | succ n ih =>
      have hearlier : (p.after n).Bears v → ∃ k < n + 1, (p.after k).constructed? = some v := by
        intro hbefore
        rcases ih hbefore with ⟨k, hk, hmade⟩
        exact ⟨k, Nat.lt_succ_of_lt hk, hmade⟩
      rw [after_succ] at h
      cases (p.after n).outcome_step with
      | moves _ _ hmoved =>
          rcases hmoved hi h with hbefore | ⟨b, hb⟩
          · exact hearlier hbefore
          · exact absurd hb (hliteral _ _)
      | makes u _ _ hmade htop hwrapped =>
          rcases hmade hi h with hbefore | rfl
          · exact hearlier hbefore
          · refine ⟨n, Nat.lt_succ_self n, ?_⟩
            -- A step that constructs nothing makes literal procedures only.
            cases hconstructing : (p.after n).constructing with
            | false =>
                rcases hwrapped hconstructing with ⟨inner, hinner⟩
                exact absurd hinner (hliteral _ _)
            | true =>
                rcases htop hconstructing with ⟨hfault, hhead⟩
                simp only [constructed?, hconstructing, hfault, hhead, Option.isNone_none,
                  Bool.and_self, if_true, Option.map_some]
                rfl

end Process

namespace Value

theorem equalAll_self {items : List Value} (h : ∀ item ∈ items, item.equal item = true) :
    equalAll items items = true := by
  induction items with
  | nil => rw [equalAll]
  | cons item items ih =>
      rw [equalAll, h item List.mem_cons_self, Bool.true_and]
      exact ih fun other hmem => h other (List.mem_cons_of_mem _ hmem)

/-- A value is equal to itself unless not-a-number is inside. -/
theorem equal_self {v : Value} (h : v.Throughout IsNumber) : v.equal v = true := by
  induction v using nested_induction with
  | real x =>
      rcases Binary64.exists_place h.self with ⟨a, ha⟩
      rw [equal]
      simp only [Binary64.eq, Binary64.order?, ha, Std.ReflCmp.compare_self, beq_self_eq_true]
  | name text => rw [equal, beq_self_eq_true]
  | bool b => rw [equal, beq_self_eq_true]
  | array identity items ih =>
      rw [equal]
      exact equalAll_self fun item hmem => ih item hmem fun w hw => h w (.item hmem hw)
  | procedure identity body => rw [equal, beq_self_eq_true]
  | operator op => rw [equal, beq_self_eq_true]
  | literal identity inner ih =>
      rw [equal]
      exact ih h.wrapped

/-- Values that compare as the same are equal in what they hold, if one identity is the
    identity of one value. -/
theorem equal_of_identical {v w : Value} (hv : v.Throughout IsNumber)
    (hone : ∀ {i : Identity}, v.identity? = some i → w.identity? = some i → v = w)
    (h : v.identical w = true) : v.equal w = true := by
  -- Whatever has an identity is the other value.
  have hsame : ∀ {i j : Identity}, v.identity? = some i → w.identity? = some j → (i == j) = true →
      v.equal w = true := by
    intro i j hi hj hij
    rw [beq_iff_eq] at hij
    rw [← hone hi (hij ▸ hj)]
    exact equal_self hv
  unfold identical at h
  split at h
  · rw [equal]
    exact h
  · rw [equal]
    exact h
  · rw [equal]
    exact h
  · exact hsame rfl rfl h
  · next i body j other =>
      rcases Bool.or_eq_true_iff.mp h with hij | hempty
      · exact hsame rfl rfl hij
      · rw [Bool.and_eq_true, List.isEmpty_iff, List.isEmpty_iff] at hempty
        rw [equal, hempty.1, hempty.2]
        rfl
  · rw [equal]
    exact h
  · exact hsame rfl rfl h
  · cases h

/-- A value that is equal to itself compares as the same. -/
theorem identical_self {v : Value} (h : v.equal v = true) : v.identical v = true := by
  cases v with
  | real x => rwa [equal] at h
  | name text => exact beq_self_eq_true text
  | bool b => exact beq_self_eq_true b
  | array identity items => exact beq_self_eq_true identity
  | procedure identity body =>
      simp only [identical, beq_self_eq_true, Bool.true_or]
  | operator op => exact beq_self_eq_true op
  | literal identity inner => exact beq_self_eq_true identity

theorem identical_of_isEmptyProcedure {v w : Value} (hv : v.isEmptyProcedure = true)
    (hw : w.isEmptyProcedure = true) : v.identical w = true := by
  cases v with
  | procedure i body =>
      cases w with
      | procedure j other =>
          have hboth : (body.isEmpty && other.isEmpty) = true := Bool.and_eq_true_iff.mpr ⟨hv, hw⟩
          rw [identical, hboth, Bool.or_true]
      | _ => cases hw
  | _ => cases hv

/-- Values with different identities differ, unless both are procedures with an empty
    body. -/
theorem identical_eq_false {v w : Value} {i j : Identity} (hi : v.identity? = some i)
    (hj : w.identity? = some j) (hij : i ≠ j)
    (hempty : (v.isEmptyProcedure && w.isEmptyProcedure) = false) : v.identical w = false := by
  have hne : (i == j) = false := beq_false_of_ne hij
  unfold identical
  split
  · cases hi
  · cases hi
  · cases hi
  · rwa [← Option.some.inj hi, ← Option.some.inj hj] at hne
  · rw [← Option.some.inj hi, ← Option.some.inj hj] at hne
    rw [hne, Bool.false_or]
    exact hempty
  · cases hi
  · rwa [← Option.some.inj hi, ← Option.some.inj hj] at hne
  · rfl

end Value

namespace Cell

/-- What the operator answers that compares the two values on top of the stack, in any
    state and under any limits. -/
def Compares (x y : Cell) (answer : Bool) : Prop :=
  ∀ (limits : Settings) (s : State) (rest : List Cell), s.operands = y :: x :: rest →
    Primitive.eq.perform limits s = .ok { s with operands := .of (.bool answer) :: rest }

/-- The operator compares identities. -/
theorem compares_iff {x y : Cell} {answer : Bool} :
    x.Compares y answer ↔ x.value.identical y.value = answer := by
  have hperform : ∀ (limits : Settings) (s : State) (rest : List Cell),
      s.operands = y :: x :: rest → Primitive.eq.perform limits s
        = .ok { s with operands := .of (.bool (x.value.identical y.value)) :: rest } := by
    intro limits s rest hoperands
    exact State.onOperands_eq_ok_iff.mpr ⟨_,
      Operands.sameness_eq_ok_iff.mpr ⟨x, y, rest, hoperands, rfl⟩, rfl⟩
  constructor
  · intro h
    have hsame := (hperform .standard { State.initial with operands := [y, x] } [] rfl).symm.trans
      (h .standard { State.initial with operands := [y, x] } [] rfl)
    simp only [Except.ok.injEq, State.mk.injEq, List.cons.injEq, of, Cell.mk.injEq,
      Value.bool.injEq, and_true] at hsame
    exact hsame
  · rintro rfl
    exact hperform

/-- A value is the same as the copy of it that the stack operator makes, in any state
    with room for the copy. -/
def MatchesCopy (x : Cell) : Prop :=
  ∀ (limits : Settings) (s : State) (rest : List Cell), s.operands = x :: rest →
    s.hasRoom limits = true →
      (Primitive.dup.perform limits s).bind (Primitive.eq.perform limits)
        = .ok { s with operands := .of (.bool true) :: rest }

theorem matchesCopy_of_identical {x : Cell} (h : x.value.identical x.value = true) :
    x.MatchesCopy := by
  intro limits s rest hoperands hroom
  have hdup : Primitive.dup.perform limits s = .ok (s.push x.value) :=
    State.duplicate_eq_ok_iff.mpr ⟨x, rest, hoperands, hroom, rfl⟩
  have hcopy : x.Compares (.of x.value) true := compares_iff.mpr h
  rw [hdup]
  refine hcopy limits (s.push x.value) rest ?_
  change Cell.of x.value :: s.operands = _
  rw [hoperands]

end Cell

/-- In every state that a program passes through, operands that compare as the same are
    equal in what they hold, and an operand compares as the same with a copy of it. Every
    array and every procedure that the program holds, on the stack, by a name or inside
    another value, was made by a step of its run, and what two different steps make
    compares as different, wherever it has got to since; all procedures with an empty
    body compare as the same. The state that the run ends in is one of those it passes
    through. -/
theorem comparison_sound (settings : Settings) (source : Source) (supply : Supply) :
    let p := Process.start (.start settings source) supply
    (∀ n, let s := (p.after n).run.machine.toState
      (∀ x ∈ s.operands, ∀ y ∈ s.operands, x.Compares y true →
        x.value.equal y.value = true) ∧
      (∀ x ∈ s.operands, x.MatchesCopy) ∧
      (∀ v, s.Holds v → v.isConstructed = true → ∃ k < n, (p.after k).constructed? = some v)) ∧
    (∀ j k v w, (p.after j).constructed? = some v → (p.after k).constructed? = some w → j ≠ k →
      (v.isEmptyProcedure && w.isEmptyProcedure) = false →
        ∀ object other, Cell.Compares ⟨v, object⟩ ⟨w, other⟩ false) ∧
    (∀ v w, v.isEmptyProcedure = true → w.isEmptyProcedure = true →
      ∀ object other, Cell.Compares ⟨v, object⟩ ⟨w, other⟩ true) ∧
    ∃ n, p.after n = .finished ((Machine.start settings source).runFrom supply) := by
  intro p
  refine ⟨fun n => ?_, ?_, ?_, Process.reaches_runFrom _ _⟩
  · have hcoherent : (p.after n).Coherent :=
      Process.coherent_after (Process.coherent_start settings source supply) n
    have hsupply : ∀ lexemes, supply = .list lexemes → True := fun _ _ => trivial
    have hnumber := (isNumber_upheld.sound_after settings source hsupply n).machine.operands
    have hbears : ∀ x ∈ (p.after n).run.machine.operands, (p.after n).Bears x.value :=
      fun x hx => Or.inl (Or.inl ⟨x, hx, Or.inl .self⟩)
    refine ⟨fun x hx y hy hsame => ?_, fun x hx => ?_, fun v hv hconstructed => ?_⟩
    · refine Value.equal_of_identical (hnumber x hx) (fun hi hj => ?_) (Cell.compares_iff.mp hsame)
      exact hcoherent.one hi hj (Or.inl (hbears x hx)) (Or.inl (hbears y hy))
    · exact Cell.matchesCopy_of_identical (Value.identical_self (Value.equal_self (hnumber x hx)))
    · exact Process.exists_constructed hconstructed
        (Process.not_bears_start settings source supply v) (Or.inl hv.bears)
  · intro j k v w hv hw hjk hempty object other
    -- Whichever step came first, its value has the lower identity.
    refine Cell.compares_iff.mpr ?_
    rcases Nat.lt_or_gt_of_ne hjk with hlt | hgt
    · rcases Process.identity_lt_of_constructed hlt hv hw with ⟨a, b, ha, hb, hab⟩
      exact Value.identical_eq_false ha hb (Nat.ne_of_lt hab) hempty
    · rcases Process.identity_lt_of_constructed hgt hw hv with ⟨b, a, hb, ha, hba⟩
      exact Value.identical_eq_false ha hb (Nat.ne_of_gt hba) hempty
  · intro v w hv hw object other
    exact Cell.compares_iff.mpr (Value.identical_of_isEmptyProcedure hv hw)

end PathScript
