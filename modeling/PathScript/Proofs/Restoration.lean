import PathScript.Proofs.Picture
import PathScript.Proofs.Termination

/-!
# Returning to a Graphics State

A program that keeps the graphics state and comes back to it finds it as it
was, whatever it has drawn, painted or changed in between.

What runs in between can keep and bring back graphics states of its own, at any
depth of procedures, so nothing about it can be read off its text. What can be
said is about heights of the stack of graphics states. A step puts one on, takes
one off, or leaves the stack alone, and it takes one off only if it performs the
operator that does. So the entries that are below all that happens stay, and a
program stays above a height as long as it does not perform that operator there.

## Main definitions

* `State.oldest`: The oldest of the graphics states to return to.
* `Process.ReturnsAt`: The next step takes a graphics state off at a height.

## Theorems

* `Process.saved_step`: What a step does to the stack.
* `Process.oldest_step`, `Process.oldest_after`: Entries below all that happens.
* `Process.le_height_step`, `Process.le_height_after`: Staying above a height.
* `restore_returns_what_save_kept`: Coming back to a graphics state.
-/

namespace PathScript

/-- The oldest of the graphics states to return to, as many as asked for. -/
def State.oldest (s : State) (n : Nat) : List GraphicsState :=
  s.saved.drop (s.saved.length - n)

theorem State.oldest_length (s : State) : s.oldest s.saved.length = s.saved := by
  rw [oldest, Nat.sub_self, List.drop_zero]

/-- One more on top is none of the oldest. -/
theorem State.oldest_of_cons {s s' : State} {g : GraphicsState} {n : Nat}
    (hsaved : s'.saved = g :: s.saved) (hn : n ≤ s.saved.length) : s'.oldest n = s.oldest n := by
  have hlength : s'.saved.length - n = s.saved.length - n + 1 := by
    rw [hsaved, List.length_cons]
    omega
  rw [oldest, oldest, hlength, hsaved, List.drop_succ_cons]

namespace Process

/-- The next step takes a graphics state off at a height of the stack. -/
def ReturnsAt (p : Process) (height : Nat) : Prop :=
  p.performing? = some .grestore ∧ p.run.machine.saved.length = height

instance (p : Process) (height : Nat) : Decidable (p.ReturnsAt height) :=
  inferInstanceAs (Decidable (_ ∧ _))

/-- What a step does to the stack: nothing, or it puts one graphics state on, or it
    performs the operator that takes one off. -/
theorem saved_step (p : Process) :
    p.step.run.machine.saved = p.run.machine.saved ∨
    (∃ g, p.step.run.machine.saved = g :: p.run.machine.saved) ∨
    (p.performing? = some .grestore ∧
      ∃ g, p.run.machine.saved = g :: p.step.run.machine.saved) := by
  rcases p.redraws_step with hsame | ⟨op, hop, hredraws⟩
  · exact Or.inl hsame.saved
  · cases hredraws with
    | alters _ _ hsaved _ => exact Or.inl hsaved
    | paints _ _ hsaved _ => exact Or.inl hsaved
    | saves _ hsaved _ => exact Or.inr (Or.inl ⟨_, hsaved⟩)
    | restores hsaved _ => exact Or.inr (Or.inr ⟨hop, _, hsaved⟩)

/-- A step that begins and ends at a height or above leaves the entries below it. -/
theorem oldest_step {p : Process} {n : Nat} (hbegins : n ≤ p.run.machine.saved.length)
    (hends : n ≤ p.step.run.machine.saved.length) :
    p.step.run.machine.oldest n = p.run.machine.oldest n := by
  rcases p.saved_step with hsame | ⟨g, hpush⟩ | ⟨_, g, hpop⟩
  · rw [State.oldest, State.oldest, hsame]
  · exact State.oldest_of_cons hpush hbegins
  · exact (State.oldest_of_cons hpop hends).symm

/-- So does any number of steps that stay there. -/
theorem oldest_after {p : Process} {n j : Nat}
    (h : ∀ k ≤ j, n ≤ (p.after k).run.machine.saved.length) :
    (p.after j).run.machine.oldest n = p.run.machine.oldest n := by
  induction j with
  | zero => rfl
  | succ j ih =>
      -- The last step begins and ends at the height or above, as do those before it.
      have hbegins := h j (Nat.le_succ j)
      have hends := h (j + 1) (Nat.le_refl _)
      rw [after_succ] at hends ⊢
      rw [oldest_step hbegins hends]
      exact ih fun k hk => h k (Nat.le_succ_of_le hk)

/-- A step falls below a height only by taking a graphics state off there. -/
theorem le_height_step {p : Process} {n : Nat} (hn : n ≤ p.run.machine.saved.length)
    (hstays : ¬ p.ReturnsAt n) : n ≤ p.step.run.machine.saved.length := by
  rcases p.saved_step with hsame | ⟨g, hpush⟩ | ⟨hop, g, hpop⟩
  · rw [hsame]
    exact hn
  · rw [hpush, List.length_cons]
    omega
  · -- The height is not reached yet, so one less is still not below it.
    have hheight : p.run.machine.saved.length ≠ n := fun hheight => hstays ⟨hop, hheight⟩
    rw [hpop, List.length_cons] at hn hheight
    omega

/-- So do any number of steps. -/
theorem le_height_after {p : Process} {n : Nat} (hn : n ≤ p.run.machine.saved.length)
    (hstays : ∀ k, ¬ (p.after k).ReturnsAt n) (j : Nat) :
    n ≤ (p.after j).run.machine.saved.length := by
  induction j with
  | zero => exact hn
  | succ j ih =>
      rw [after_succ]
      exact le_height_step ih (hstays j)

end Process

namespace Machine

theorem runOperator_primitive (m : Machine) (p : Primitive) :
    m.runOperator (.primitive p) = m.perform p := by
  rw [runOperator, invoke]

/-- Keeping the graphics state, if there is room for it. -/
theorem perform_gsave {m : Machine} (h : (m.perform .gsave).fault? = none) :
    (m.perform .gsave).machine = { m with saved := m.graphics :: m.saved } := by
  cases hperform : Primitive.gsave.perform m.settings m.toState with
  | error c =>
      rw [perform_eq, hperform] at h
      exact absurd h (by simp only [Run.failed, reduceCtorEq, not_false_eq_true])
  | ok s =>
      rcases State.save_eq_ok_iff.mp hperform with ⟨_, rfl⟩
      rw [perform_eq, hperform]

/-- Taking a graphics state off. -/
theorem perform_grestore {m : Machine} {g : GraphicsState} {saved : List GraphicsState}
    (h : m.saved = g :: saved) :
    m.perform .grestore = .done { m with graphics := g, saved := saved } := by
  have hperform : Primitive.grestore.perform m.settings m.toState
      = .ok { m.toState with graphics := g, saved := saved } :=
    State.restore_eq_ok_iff.mpr ⟨g, saved, h, rfl⟩
  rw [perform_eq, hperform]
  rfl

end Machine

/-- A program that keeps the graphics state and comes back to it finds it as it was.
    Between the two, it may do anything that completes, as long as it never returns
    at the height where the graphics state was kept and is at that height in the end:
    the graphics state and the ones to return to are those there were before, and all
    else is as the program left it.

    More generally, as long as a process stays at a height or above, the entries below
    that height do not change, and those of a whole run do not either. -/
theorem restore_returns_what_save_kept :
    (∀ (m : Machine) (supply : Supply),
      let kept := m.runOperator (.primitive .gsave)
      let body := kept.machine.runFrom supply
      let returned := body.machine.runOperator (.primitive .grestore)
      kept.fault? = none → body.fault? = none →
      (∀ k, ¬ ((Process.start kept.machine supply).after k).ReturnsAt
        kept.machine.saved.length) →
      body.machine.saved.length = kept.machine.saved.length →
      returned.fault? = none ∧
      returned.machine = { body.machine with graphics := m.graphics, saved := m.saved }) ∧
    (∀ (p : Process) (n j : Nat),
      (∀ k ≤ j, n ≤ (p.after k).run.machine.saved.length) →
      (p.after j).run.machine.oldest n = p.run.machine.oldest n) ∧
    (∀ (m : Machine) (supply : Supply) (n : Nat),
      (∀ k, n ≤ ((Process.start m supply).after k).run.machine.saved.length) →
      (m.runFrom supply).machine.oldest n = m.oldest n) := by
  -- A whole run is the end of a process.
  have hrun : ∀ (m : Machine) (supply : Supply) (n : Nat),
      (∀ k, n ≤ ((Process.start m supply).after k).run.machine.saved.length) →
      (m.runFrom supply).machine.oldest n = m.oldest n := by
    intro m supply n hheight
    rcases Process.reaches_runFrom m supply with ⟨j, hj⟩
    have holdest := Process.oldest_after (p := Process.start m supply) (j := j)
      fun k _ => hheight k
    rw [hj] at holdest
    exact holdest
  refine ⟨?_, fun p n j => Process.oldest_after, hrun⟩
  intro m supply kept body returned hkept _ hstays hheight
  have hmachine : kept.machine = { m with saved := m.graphics :: m.saved } := by
    simp only [kept, Machine.runOperator_primitive] at hkept ⊢
    exact Machine.perform_gsave hkept
  -- The body stays above the height it begins at, so that all entries are still there.
  have habove := Process.le_height_after (p := Process.start kept.machine supply)
    (Nat.le_refl _) hstays
  have holdest : body.machine.oldest kept.machine.saved.length = kept.machine.saved :=
    (hrun kept.machine supply _ habove).trans (State.oldest_length _)
  rw [← hheight, State.oldest_length, hmachine] at holdest
  have hreturned : returned = .done { body.machine with graphics := m.graphics, saved := m.saved } := by
    simp only [returned, Machine.runOperator_primitive]
    exact Machine.perform_grestore holdest
  rw [hreturned]
  exact ⟨rfl, rfl⟩

/-- A body that drops the path, draws and strokes one of its own inside another pair,
    fills and changes the line width, in a machine that has drawn something and has a
    graphics state to return to. -/
theorem restore_returns_what_save_kept_nested :
    let drawn : GraphicsState :=
      { GraphicsState.initial with path := [.move ⟨.one, .one⟩, .line ⟨.one, .zero false⟩] }
    let m : Machine :=
      { Machine.start Settings.standard (.text "") with graphics := drawn, saved := [.initial] }
    let supply := Supply.list ["newpath", "1", "2", "moveto", "gsave", "1", "setlinecap", "stroke",
      "grestore", "5", "setlinewidth", "fill", "/a"]
    let kept := m.runOperator (.primitive .gsave)
    let body := kept.machine.runFrom supply
    let returned := body.machine.runOperator (.primitive .grestore)
    kept.fault? = none ∧ body.fault? = none ∧ body.machine.saved.length = 2 ∧
    body.machine.drawing.length = 2 ∧ body.machine.graphics.path = [] ∧
    returned.fault? = none ∧
    returned.machine = { body.machine with graphics := drawn, saved := [.initial] } := by
  intro drawn m supply kept body returned
  have hmachine : kept.machine = { m with saved := drawn :: m.saved } := by
    simp only [kept, Machine.runOperator_primitive]
    rfl
  have hkept : kept.fault? = none := by
    simp only [kept, Machine.runOperator_primitive]
    rfl
  have hend : let p := Process.start { m with saved := drawn :: m.saved } supply
      ((p.after 40).tasks.isEmpty = true ∧ (p.after 40).run.fault? = none ∧
        (p.after 40).run.machine.saved.length = 2 ∧
        (p.after 40).run.machine.drawing.length = 2 ∧
        (p.after 40).run.machine.graphics.path = []) ∧
      ∀ k ≤ 40, ¬ (p.after k).ReturnsAt 2 := by decide +kernel
  rw [← hmachine] at hend
  rcases hend with ⟨⟨htasks, hnone, hheight, hdrawing, hpath⟩, hstays⟩
  have hlength : kept.machine.saved.length = 2 := by
    rw [hmachine]
    rfl
  have hstays : ∀ k, ¬ ((Process.start kept.machine supply).after k).ReturnsAt
      kept.machine.saved.length := by
    rw [hlength]
    exact Process.forall_after (P := fun p => ¬ p.ReturnsAt 2) (List.isEmpty_iff.mp htasks) hstays
  have hrun : ((Process.start kept.machine supply).after 40).run = body :=
    (Process.runFrom_eq_of_tasks_nil (List.isEmpty_iff.mp htasks)).symm
  rw [hrun] at hnone hheight hdrawing hpath
  rcases restore_returns_what_save_kept.1 m supply hkept hnone hstays
    (hheight.trans hlength.symm) with ⟨hfault, hreturned⟩
  exact ⟨hkept, hnone, hheight, hdrawing, hpath, hfault, hreturned⟩

end PathScript
