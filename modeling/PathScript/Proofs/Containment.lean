import PathScript.Proofs.CapturedCode
import PathScript.Proofs.Complaints
import PathScript.Proofs.Host
import PathScript.Proofs.ReadingText
import PathScript.Proofs.WellDrawn

/-!
# Numbers and Faults Contained

A text, whatever it is, runs to its end or to a fault of a few kinds, and on the
way everything stays a number.

The numbers that a program holds come from literals and arithmetic, which are
refused unless they are finite, from negation, and from counting the operand stack.
They are finite, then, as long as heights are. A height is a finite number unless it
is beyond the range of binary numbers, which would be a stack of more operands than
there is room for anywhere. Nothing in the definition of a machine excludes that, but
a host does, so it is the states on a host that hold finite numbers. That numbers are
numbers would need no host.

Maps are another matter. Their arithmetic is not checked, so an entry can become
infinite, and then the map can have no value at a finite point. That is the one way
in which a program can end in something other than a report, and it takes one of the
four operators that apply a map.

What else could go wrong cannot go wrong in a text. There is a source and its lines
can be decoded, and lexemes have characters, in the source as in bodies.

A host may have to give up before the end is reached. It has to where there are more
operands than it has room for, or more calls than it can bear, and the calls that the
limit on nesting does not count are those of conditionals that execute conditionals.

## Main definitions

* `Value.IsFinite`: A value that, if it is real, is finite.
* `Process.CountsBelow`: A process that counts no stack of a certain height.
* `Run.FaultsListed`: A run that can only have failed with a report.

## Theorems

* `Binary64.nearestPosition_lt`, `Binary64.isFinite_ofNat`: Counts that are finite
  numbers.
* `isFinite_after`: Programs hold finite numbers while stacks are not too high.
* `Task.faultsListed_perform`: Tasks that perform no operator end in reports.
* `Process.fault_step`, `Process.cause_of_fault`: The faults that a step and a text can
  end in.
* `Host.isFinite_after`: Programs hold finite numbers on a host.
* `Host.exists_cause`: What a host cannot bear when it gives up.
* `numbers_and_faults_contained`: Both for whole runs.
-/

namespace PathScript

namespace Binary64

/-- A number of quanta that is below a power of two has a position some blocks below
    it. Rounding can lead to the next block, and not beyond its beginning. -/
theorem nearestPosition_lt {quanta k : Nat} (h : quanta < twoTo (k + 53)) :
    nearestPosition quanta 1 < (k + 3) * twoTo 52 := by
  -- The scale is that of the last power of two, but not less than a quantum.
  have hscale : ∃ scale, quanta.log2 - 52 = scale ∧ scale ≤ k ∧
      quanta < twoTo 53 * twoTo scale := by
    refine ⟨quanta.log2 - 52, rfl, ?_⟩
    rw [← twoTo_add]
    by_cases hzero : quanta = 0
    · rw [hzero, Nat.log2_zero]
      exact ⟨Nat.zero_le k, twoTo_pos _⟩
    · have hlow : quanta.log2 < k + 53 := (Nat.log2_lt hzero).mpr h
      have hhigh : quanta < twoTo (quanta.log2 + 1) := (Nat.log2_lt hzero).mp (Nat.lt_succ_self _)
      exact ⟨by omega, Nat.lt_of_lt_of_le hhigh (twoTo_le_twoTo (by omega))⟩
  rcases hscale with ⟨scale, hlog, hle, hquanta⟩
  have hsteps : quanta / twoTo scale < twoTo 53 :=
    (Nat.div_lt_iff_lt_mul (twoTo_pos scale)).mpr hquanta
  have hrounded : roundHalfEven quanta (twoTo scale) ≤ twoTo 53 := by
    rcases roundHalfEven_eq_or quanta (twoTo scale) with heq | heq <;> omega
  have hblocks : scale * twoTo 52 ≤ k * twoTo 52 := Nat.mul_le_mul_right _ hle
  have hblock : twoTo 53 = twoTo 52 * 2 := twoTo_succ 52
  have hpower := twoTo_pos 52
  simp only [nearestPosition, Nat.div_one, Nat.one_mul, hlog, Nat.add_mul]
  omega

theorem isFinite_ofRatio {negative : Bool} {num den : Nat}
    (h : nearestPosition num den < finiteMagnitudes) :
    (ofRatio negative num den).isFinite = true := by
  unfold ofRatio
  rw [dif_pos h]
  rfl

/-- A count that is below a power of two is a finite number. -/
theorem isFinite_ofNat {n k : Nat} (h : n < twoTo k) (hk : k ≤ 1023) :
    (ofInt n).isFinite = true := by
  have hpos : 0 < quantaPerOne := twoTo_pos 1074
  have hquanta : n * quantaPerOne < twoTo (2044 + 53) := by
    refine Nat.lt_of_lt_of_le (Nat.mul_lt_mul_of_pos_right h hpos) ?_
    rw [quantaPerOne, ← twoTo_add]
    exact twoTo_le_twoTo (by omega)
  unfold ofInt
  rw [Int.natAbs_natCast]
  exact isFinite_ofRatio (nearestPosition_lt hquanta)

end Binary64

/-- A value that, if it is real, is finite. -/
def Value.IsFinite : Value → Prop
  | .real x => x.isFinite = true
  | _ => True

/-- Whatever a program holds is finite, but for the heights of stacks. -/
theorem isFinite_sustained : Sustained Value.IsFinite (fun _ => True) where
  name := fun _ => trivial
  bool := fun _ => trivial
  operator := fun _ => trivial
  real := fun _ hfinite => hfinite
  negated := by
    intro x hx
    cases x with
    | finite s p => exact rfl
    | infinite s => exact hx
    | nan => exact hx
  array := fun _ _ => trivial
  literal := fun _ _ _ => trivial
  body := fun _ => trivial
  nil := trivial
  tail := fun _ _ => trivial
  capture := fun _ _ _ => ⟨fun _ => trivial, trivial⟩
  captureInput := fun _ _ _ => trivial

/-- A process that, in a number of steps, counts only stacks below a height. A height
    beyond it may be no finite number. -/
def Process.CountsBelow (p : Process) (n : Nat) : Prop :=
  ∀ k < n, (p.after k).performing? = some .count →
    (p.after k).run.machine.operands.length < twoTo 1023

/-- Programs hold finite numbers. -/
theorem isFinite_after (settings : Settings) (source : Source) (n : Nat)
    (hcounts : (Process.start (.start settings source) .input).CountsBelow n) {x : Binary64}
    (h : ((Process.start (.start settings source) .input).after n).run.machine.Holds (.real x)) :
    x.isFinite = true := by
  have hlexemes : ∀ lexemes, Supply.input = .list lexemes → True := fun _ _ => trivial
  refine (isFinite_sustained.sound_after settings source hlexemes n ?_).machine.of_holds h
  exact fun k hk hcount => Binary64.isFinite_ofNat (hcounts k hk hcount) (Nat.le_refl _)

/-- A run that, if it has failed, has failed with a report of one of the kinds that have
    a number. -/
def Run.FaultsListed (r : Run) : Prop := ∀ f, r.fault? = some f → f.isListed = true

/-- A complaint and the fault that it becomes are of the same kind. -/
theorem Machine.isListed_fault (m : Machine) (command : String) (c : Complaint) :
    (m.fault command c).isListed = c.isListed := by
  cases c with
  | report kind detail => rfl
  | undefinedArithmetic => rfl

namespace Run

theorem faultsListed_of_none {r : Run} (h : r.fault? = none) : r.FaultsListed := by
  intro f hf
  rw [h] at hf
  cases hf

theorem faultsListed_failed {m m' : Machine} {command : String} {c : Complaint}
    (h : c.isListed = true) : (failed m (m'.fault command c)).FaultsListed := by
  intro f hf
  rw [← Option.some.inj hf, Machine.isListed_fault]
  exact h

/-- A change that objects only with complaints that have a number. -/
theorem faultsListed_ofChange {m : Machine} {command : String} {r : Except Complaint State}
    (h : ObjectsListed r) : (ofChange m command r).FaultsListed := by
  cases r with
  | ok s => exact faultsListed_of_none rfl
  | error c => exact faultsListed_failed (h c rfl)

end Run

namespace Machine

variable {m : Machine}

theorem objects_readNumber (lexeme : String) : ObjectsListed (readNumber lexeme) := by
  unfold readNumber
  split
  · exact objectsWithin_error rfl
  · split
    · exact objectsWithin_ok
    · exact objectsWithin_error rfl

theorem faultsListed_closeArray : m.closeArray.FaultsListed := by
  rcases hmarks : m.marks with _ | ⟨height, marks⟩
  · rw [closeArray_of_nil hmarks]
    exact Run.faultsListed_failed rfl
  · rcases Nat.lt_or_ge m.operands.length height with hlt | hle
    · rw [closeArray_of_lt hmarks hlt]
      exact Run.faultsListed_failed rfl
    · rw [closeArray_of_le hmarks hle]
      split
      · exact Run.faultsListed_of_none rfl
      · exact Run.faultsListed_failed rfl

/-- A lexeme that has characters. -/
theorem faultsListed_stepPlain {lexeme : String} (h : lexeme.toList ≠ []) :
    (m.stepPlain lexeme).FaultsListed := by
  unfold stepPlain
  split
  · next hnil => exact absurd hnil h
  · split
    · exact Run.faultsListed_ofChange (State.objects_push? _)
    · split
      · exact Run.faultsListed_ofChange
          (objectsWithin_bind (objects_readNumber lexeme) fun _ => State.objects_push? _)
      · split
        · exact Run.faultsListed_of_none rfl
        · split
          · exact faultsListed_closeArray
          · exact Run.faultsListed_failed rfl

theorem faultsListed_beginLexeme {lexeme : String} (h : IsLexeme lexeme) :
    (m.beginLexeme lexeme).run.FaultsListed := by
  -- What lines deliver has characters.
  have hchars : lexeme.toList ≠ [] := by
    intro hnil
    have hform := isLexeme_iff.mp h
    rw [hnil] at hform
    exact absurd hform Bool.false_ne_true
  unfold beginLexeme
  split
  · unfold beginName
    split
    · exact Run.faultsListed_of_none rfl
    · exact Run.faultsListed_failed rfl
  · exact faultsListed_stepPlain hchars

/-- Passing over font definitions in a text. -/
theorem faultsListed_findFont (h : m.ReadsText) : m.findFont.FaultsListed := by
  rcases h with ⟨t, ht, hreadable⟩
  rcases hoperands : m.operands with _ | ⟨cell, rest⟩
  · rw [findFont_of_nil hoperands]
    exact Run.faultsListed_failed rfl
  · rw [findFont_of_cons hoperands]
    rcases (Tokenizer.readable_skipTo hreadable m.settings.prologMarker).1 with ⟨found, hfound⟩
    -- The marker is found or the lines end, and neither is a line that cannot be decoded.
    simp only [skipFonts, ht, hfound]
    cases found with
    | true => exact Run.faultsListed_of_none rfl
    | false => exact Run.faultsListed_failed rfl

theorem faultsListed_beginConditional : m.beginConditional.run.FaultsListed := by
  unfold beginConditional
  split
  · next c hc => exact Run.faultsListed_failed (State.objects_takeCondition c hc)
  · exact Run.faultsListed_of_none rfl
  · exact Run.faultsListed_of_none rfl

/-- Executing a value other than a primitive operator. -/
theorem faultsListed_beginValue (h : m.ReadsText) (name : String) {value : Value}
    (hvalue : ∀ op, value ≠ .operator (.primitive op)) :
    (m.beginValue name value).run.FaultsListed := by
  cases value with
  | operator op =>
      cases op with
      | primitive p => exact absurd rfl (hvalue p)
      | findfont => exact faultsListed_findFont h
      | conditional => exact faultsListed_beginConditional
  | procedure identity body =>
      simp only [beginValue, enter]
      split
      · exact Run.faultsListed_of_none rfl
      · exact Run.faultsListed_failed rfl
  | literal identity inner => exact Run.faultsListed_ofChange (State.objects_push? _)
  | real x => exact Run.faultsListed_failed rfl
  | name text => exact Run.faultsListed_failed rfl
  | bool b => exact Run.faultsListed_failed rfl
  | array identity items => exact Run.faultsListed_failed rfl

/-- Capturing a procedure from a text. -/
theorem faultsListed_captureInput (h : m.ReadsText) (lexeme : String) :
    (m.captureInput lexeme).FaultsListed := by
  rcases h with ⟨t, ht, hreadable⟩
  have hdecodes : ∀ e, (t.capture 0).1 ≠ .error (.decoding e) :=
    (Tokenizer.readable_capture hreadable).1
  simp only [captureInput, ht]
  split
  · next e he => exact absurd he (hdecodes e)
  · exact Run.faultsListed_failed rfl
  · exact Run.faultsListed_ofChange (State.objects_pushProcedure? _)

end Machine

namespace Task

/-- Running lexemes of a list. -/
theorem faultsListed_perform_list (m : Machine) {lexemes : List String} (h : Code lexemes) :
    ((Task.run (.list lexemes)).perform m).run.FaultsListed := by
  cases lexemes with
  | nil => exact Run.faultsListed_of_none rfl
  | cons lexeme rest =>
      simp only [perform, Supply.take]
      split
      · simp only [Supply.capture]
        split
        · exact Run.faultsListed_failed rfl
        · exact Run.faultsListed_ofChange (State.objects_pushProcedure? _)
      · exact Machine.faultsListed_beginLexeme (h.isLexeme lexeme List.mem_cons_self)

/-- Running lexemes of a text. -/
theorem faultsListed_perform_input {m : Machine} {P : Value → Prop} (hm : m.Upholds P)
    (h : m.ReadsText) : ((Task.run .input).perform m).run.FaultsListed := by
  rcases h with ⟨t, ht, hreadable⟩
  rcases Tokenizer.readable_next hreadable with ⟨⟨found, hfound⟩, hrest⟩
  have hreads : Machine.ReadsText { m with input := some t.next.2 } := ⟨_, rfl, hrest⟩
  have hnext : m.nextLexeme = (.ok found, { m with input := some t.next.2 }) := by
    unfold Machine.nextLexeme
    rw [ht]
    dsimp only
    rw [hfound]
    rfl
  simp only [perform, Supply.take, hnext]
  cases found with
  | none => exact Run.faultsListed_of_none rfl
  | some lexeme =>
      -- What comes from a line has characters, pending lexemes included.
      have hlexeme := Tokenizer.isLexeme_of_next (hm.delivers t ht) hfound
      dsimp only
      split
      · exact Machine.faultsListed_captureInput hreads lexeme
      · exact Machine.faultsListed_beginLexeme hlexeme

/-- A task that performs no primitive operator ends in a report, if in any fault. -/
theorem faultsListed_perform {m : Machine} {P : Value → Prop} {V : Value → Prop} {task : Task}
    (hm : m.Upholds P) (h : m.ReadsText) (htask : task.Sound V Code)
    (hother : ∀ op name, task ≠ .execute (.operator (.primitive op)) name) :
    (task.perform m).run.FaultsListed := by
  cases task with
  | run supply =>
      cases supply with
      | list lexemes => exact faultsListed_perform_list m htask
      | input => exact faultsListed_perform_input hm h
  | execute value name =>
      exact Machine.faultsListed_beginValue h name fun op hop => hother op name (by rw [hop])
  | leave => exact Run.faultsListed_of_none rfl

end Task

namespace Process

/-- The faults that a step can end in: reports, and the lack of a value for a map, which
    takes an operator that applies it. -/
theorem fault_step {p : Process} {P V : Value → Prop} (hsound : p.Sound (Machine.Upholds P) V Code)
    (htext : p.run.machine.ReadsText) (hnone : p.run.fault? = none) {f : Fault}
    (hf : p.step.run.fault? = some f) :
    f.isListed = true ∨ f = .undefinedArithmetic ∧
      ∃ op, p.performing? = some op ∧ op.appliesMap = true ∧ p.run.machine.Balks := by
  cases hop : p.performing? with
  | some op =>
      -- The fault is what the complaint of the operator becomes.
      rw [run_step_of_performing hop] at hf
      change (p.run.machine.perform op).fault? = some f at hf
      cases hperform : op.perform p.run.machine.settings p.run.machine.toState with
      | ok s =>
          simp only [Machine.perform_eq, hperform] at hf
          cases hf
      | error c =>
          simp only [Machine.perform_eq, hperform, Run.failed, Option.some.injEq] at hf
          rw [← hf, Machine.isListed_fault]
          rcases Primitive.objects_perform _ op _ c hperform with hlisted | ⟨rfl, happlies, hbalks⟩
          · exact Or.inl hlisted
          · exact Or.inr ⟨rfl, op, rfl, happlies, hbalks⟩
  | none =>
      rcases p with ⟨tasks, r⟩
      cases tasks with
      | nil =>
          rw [show (⟨[], r⟩ : Process).step.run.fault? = none from hnone] at hf
          cases hf
      | cons task tasks =>
          rw [step_of_none hnone] at hf
          -- The task is not one that performs an operator.
          have hother : ∀ op name, task ≠ .execute (.operator (.primitive op)) name := by
            rintro op name rfl
            rw [performing_eq_some_iff.mpr ⟨hnone, name, tasks, rfl⟩] at hop
            cases hop
          exact Or.inl (Task.faultsListed_perform hsound.machine htext
            (hsound.tasks task List.mem_cons_self) hother f hf)

/-- Where the fault of a text comes from: it is a report, or there was a step that
    performed an operator that applies a map, where the map had no value. -/
theorem cause_of_fault (settings : Settings) (program : String) {n : Nat} {f : Fault} :
    let p := start (.start settings (.text program)) .input
    (p.after n).run.fault? = some f →
      (∃ report, f = .report report ∧ report.kind ∈ ErrorKind.numbered) ∨
      (f = .undefinedArithmetic ∧ ∃ k < n, ∃ op, (p.after k).performing? = some op ∧
        op.appliesMap = true ∧ (p.after k).step.run.fault? = some .undefinedArithmetic ∧
        (p.after k).run.machine.Balks) := by
  intro p hf
  have hsupply : ∀ lexemes, Supply.input = .list lexemes → Code lexemes := nofun
  rcases exists_step_of_fault rfl hf with ⟨k, hk, hearlier, hstep⟩
  rcases fault_step (hasCode_upheld.sound_after settings _ hsupply k)
    (readsText_after settings program k) hearlier hstep with
    hlisted | ⟨rfl, op, hop, happlies, hbalks⟩
  · left
    cases f with
    | report r => exact ⟨r, rfl, List.contains_iff_mem.mp hlisted⟩
    | undefinedArithmetic => exact absurd hlisted Bool.false_ne_true
    | decoding e => exact absurd hlisted Bool.false_ne_true
    | emptyLexeme => exact absurd hlisted Bool.false_ne_true
    | nothingToRead => exact absurd hlisted Bool.false_ne_true
    | nothingToSkip => exact absurd hlisted Bool.false_ne_true
  · exact Or.inr ⟨rfl, k, hk, op, hop, happlies, hstep, hbalks⟩

end Process

namespace Host

variable (host : Host) (settings : Settings) (source : Source)

/-- Programs hold finite numbers on a host. The heights that are counted there are finite
    numbers, as a host does not count so far. -/
theorem isFinite_after (n : Nat) {x : Binary64}
    (h : (host.after n (.start (.start settings source))).machine.Holds (.real x)) :
    x.isFinite = true := by
  rcases host.exists_process_after (.start settings source) rfl n with ⟨k, _, hprocess, _, hroom⟩
  rw [Hosted.machine, hprocess] at h
  refine PathScript.isFinite_after settings source k (fun j hj _ => ?_) h
  calc _ ≤ host.room := hroom j (Nat.le_of_lt hj)
    _ < twoTo 63 := host.room_lt
    _ ≤ twoTo 1023 := twoTo_le_twoTo (by decide)

/-- A host that has not given up is where the process is by itself. -/
theorem process_after {n : Nat}
    (h : (host.after n (.start (.start settings source))).exhausted = false) :
    (host.after n (.start (.start settings source))).process
      = (Process.start (.start settings source) .input).after n := by
  rcases host.exists_process_after (.start settings source) rfl n with ⟨k, _, hprocess, hsteps, _⟩
  rw [hprocess, hsteps h]

/-- What a host cannot bear when it gives up: more operands than there is room for, or
    calls. There are not more procedures among these than the limit allows, and chains of
    conditionals are short if stacks are never high, or if the conditional is not held. -/
theorem exists_cause {n : Nat}
    (h : (host.after n (.start (.start settings source))).exhausted = true) :
    ∃ k < n, let s := host.after k (.start (.start settings source))
      s.exhausted = false ∧
      (host.room < s.next.machine.operands.length ∨
        host.bears s.next.calls.procedures s.next.calls.conditionals = false) ∧
      s.next.machine.WithinLimits settings ∧
      s.next.calls.procedures = s.next.machine.depth ∧
      (∀ room, (∀ j, (host.after j (.start (.start settings source))).machine.operands.length
        ≤ room) → s.next.calls.Within (room / 2 + 1)) ∧
      ((∀ j, ¬(host.after j (.start (.start settings source))).machine.Holds
          (.operator .conditional)) → s.next.calls.Within 1) := by
  rcases host.exists_of_exhausted rfl h with ⟨k, hk, hrunning, hadmits⟩
  have horder := host.inOrder_after (chainRule_of_room host.room) rfl
    (host.operands_le (.start settings source) rfl) k
  refine ⟨k, hk, hrunning, ?_, ?_, Hosted.level_next horder, fun room hroom => ?_,
    fun hholds => ?_⟩
  · rcases Bool.and_eq_false_iff.mp hadmits with hheight | hcalls
    · exact .inl (Nat.lt_of_not_le (of_decide_eq_false hheight))
    · exact .inr hcalls
  · have hnext : (host.after k (.start (.start settings source))).next.process
        = (Process.start (.start settings source) .input).after (k + 1) := by
      rw [Process.after_succ, ← host.process_after settings source hrunning]
      rfl
    rw [Hosted.machine, hnext]
    exact withinLimits_after settings source .input (k + 1)
  · exact Hosted.within_next (chainRule_of_room room)
      (host.inOrder_after (chainRule_of_room room) rfl hroom k)
  · exact Hosted.within_next chainRule_of_not_holds
      (host.inOrder_after chainRule_of_not_holds rfl hholds k)

end Host

-- A conditional that is given a conditional that is given a conditional. A process by
-- itself completes, and a host that can bear two of them gives up.
example :
    let host : Host := ⟨1000, by decide +kernel, fun _ conditionals => decide (conditionals ≤ 2)⟩
    let m := Machine.start .standard (.text "true /clip load true /if load true /if load if")
    let p := (Process.start m .input).after 40
    (p.tasks.isEmpty = true ∧ p.run.fault? = none) ∧
      (host.after 40 (.start m)).exhausted = true := by
  decide +kernel

end PathScript
