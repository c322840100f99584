import PathScript.Proofs.Invariant
import PathScript.Proofs.Termination

/-!
# Reading Text

A source of text can always be read. Lines that cannot be decoded come from bytes,
and nothing that reads on in a source puts a line into it. So a machine that
started with a text has a source all along, and never finds a line in it that it
cannot read.

## Main definitions

* `Tokenizer.Readable`: A tokenizer whose lines can all be decoded.
* `Machine.ReadsText`: A machine with such a source.

## Theorems

* `Tokenizer.readable_next`, `Tokenizer.readable_capture`,
  `Tokenizer.readable_skipTo`: Reading on succeeds and leaves such a tokenizer.
* `readsText_invariant`: Machines keep to such a source.
* `readsText_after`: Texts are read all along.
-/

namespace PathScript

namespace Tokenizer

/-- A tokenizer whose unread lines can all be decoded. -/
def Readable (t : Tokenizer) : Prop := ∀ raw ∈ t.unread, ∃ text, raw = .ok text

theorem readable_ofText (program : String) : (ofText program).Readable := by
  intro raw hraw
  rcases List.mem_map.mp hraw with ⟨line, _, rfl⟩
  exact ⟨_, rfl⟩

theorem readable_nextLine (line : Nat) {unread : List RawLine}
    (h : ∀ raw ∈ unread, ∃ text, raw = .ok text) :
    (∃ found, (nextLine line unread).1 = .ok found) ∧ (nextLine line unread).2.Readable := by
  induction unread generalizing line with
  | nil => exact ⟨⟨none, rfl⟩, List.forall_mem_nil _⟩
  | cons raw unread ih =>
      rcases List.forall_mem_cons.mp h with ⟨⟨text, rfl⟩, hrest⟩
      unfold nextLine
      -- A line without lexemes is passed over.
      split
      · exact ih (line + 1) hrest
      · exact ⟨⟨_, rfl⟩, hrest⟩

/-- Reading a lexeme. -/
theorem readable_next {t : Tokenizer} (ht : t.Readable) :
    (∃ found, t.next.1 = .ok found) ∧ t.next.2.Readable := by
  unfold next
  split
  · exact ⟨⟨_, rfl⟩, ht⟩
  · exact readable_nextLine t.line ht

/-- Reading on after a lexeme that has been found. -/
theorem readable_of_next_eq {t rest : Tokenizer} {found : Except DecodeError (Option String)}
    (ht : t.Readable) (h : t.next = (found, rest)) : rest.Readable := by
  have hrest := (readable_next ht).2
  rw [h] at hrest
  exact hrest

/-- Reading a body: if it fails, then not for a line that cannot be decoded. -/
theorem readable_capture {inner : Nat} {t : Tokenizer} (ht : t.Readable) :
    (∀ e, (t.capture inner).1 ≠ .error (.decoding e)) ∧ (t.capture inner).2.Readable := by
  -- A lexeme that is kept does not change how a body fails.
  have hkept : ∀ {found : Except CaptureError (List String)} {lexeme : String},
      (∀ e, found ≠ .error (.decoding e)) →
      ∀ e, found.map (lexeme :: ·) ≠ .error (.decoding e) := by
    intro found lexeme hfound e h
    cases found with
    | error other =>
        rw [Except.map, Except.error.injEq] at h
        rw [h] at hfound
        exact hfound e rfl
    | ok body => exact absurd h (by simp only [Except.map, reduceCtorEq, not_false_eq_true])
  fun_induction capture inner t with
  | case1 inner t e rest h =>
      rcases (readable_next ht).1 with ⟨found, hfound⟩
      rw [h] at hfound
      cases hfound
  | case2 inner t rest h =>
      refine ⟨fun e => ?_, readable_of_next_eq ht h⟩
      simp only [ne_eq, Except.error.injEq, reduceCtorEq, not_false_eq_true]
  | case3 inner t rest found h hlt ih =>
      have hfound := ih (readable_of_next_eq ht h)
      exact ⟨hkept hfound.1, hfound.2⟩
  | case4 t rest h hlt hopen =>
      refine ⟨fun e => ?_, readable_of_next_eq ht h⟩
      simp only [ne_eq, reduceCtorEq, not_false_eq_true]
  | case5 t rest outer found h hlt hopen ih =>
      have hfound := ih (readable_of_next_eq ht h)
      exact ⟨hkept hfound.1, hfound.2⟩
  | case6 inner t lexeme rest h hlt hopen hclose found ih =>
      have hfound := ih (readable_of_next_eq ht h)
      exact ⟨hkept hfound.1, hfound.2⟩

theorem readable_skipLines (marker : Option String) (line count : Nat) {unread : List RawLine}
    (h : ∀ raw ∈ unread, ∃ text, raw = .ok text) :
    (∃ found, (skipLines marker line count unread).found = .ok found) ∧
      (skipLines marker line count unread).rest.Readable := by
  induction unread generalizing line count with
  | nil => exact ⟨⟨false, rfl⟩, List.forall_mem_nil _⟩
  | cons raw unread ih =>
      rcases List.forall_mem_cons.mp h with ⟨⟨text, rfl⟩, hrest⟩
      unfold skipLines
      split
      · exact ⟨⟨true, rfl⟩, hrest⟩
      · exact ih (line + 1) (count + 1) hrest

/-- Passing over lines. -/
theorem readable_skipTo {t : Tokenizer} (ht : t.Readable) (marker : Option String) :
    (∃ found, (t.skipTo marker).found = .ok found) ∧ (t.skipTo marker).rest.Readable :=
  readable_skipLines marker t.line 0 ht

end Tokenizer

/-- A machine with a source whose lines can all be decoded. -/
def Machine.ReadsText (m : Machine) : Prop := ∃ t, m.input = some t ∧ t.Readable

/-- A machine that reads text has a tokenizer that can be read. -/
theorem Machine.ReadsText.readable {m : Machine} (h : m.ReadsText) {t : Tokenizer}
    (ht : m.input = some t) : t.Readable := by
  rcases h with ⟨other, hother, hreadable⟩
  rw [ht] at hother
  rw [Option.some.inj hother]
  exact hreadable

/-- A machine that reads text goes on reading it, whatever is executed and whatever is
    run. -/
theorem readsText_invariant :
    Invariant (fun _ _ => True) Machine.ReadsText (fun _ => True) (fun _ => True) where
  name := fun _ => trivial
  real := fun _ _ => trivial
  literal := fun _ => trivial
  procedure := fun _ => trivial
  lookup := fun _ _ => trivial
  nil := trivial
  tail := fun _ _ => trivial
  capture := fun _ _ _ => ⟨fun _ => trivial, trivial⟩
  captureInput := fun _ _ _ _ => trivial
  next := fun h ht => ⟨_, rfl, (Tokenizer.readable_next (h.readable ht)).2⟩
  readBody := fun h ht => ⟨_, rfl, (Tokenizer.readable_capture (h.readable ht)).2⟩
  skip := fun h ht => ⟨_, rfl, (Tokenizer.readable_skipTo (h.readable ht) _).2⟩
  push := fun h _ _ => h
  pushProcedure := fun h _ _ => h
  openArray := fun h => h
  closeArray := by
    intro m h
    rcases m.machine_closeArray with ⟨operands, marks, next, hmachine⟩
    rw [hmachine]
    exact h
  perform := fun h _ _ => h
  dropOperand := fun h _ => h
  condition := fun h _ => ⟨h, fun _ _ => trivial⟩
  enter := fun h _ => h
  leave := fun h => h

/-- A program that starts with a text reads text all along. -/
theorem readsText_after (settings : Settings) (program : String) (n : Nat) :
    ((Process.start (.start settings (.text program)) .input).after n).run.machine.ReadsText := by
  have hstart : (Process.start (.start settings (.text program)) .input).Sound Machine.ReadsText
      (fun _ => True) (fun _ => True) :=
    ⟨⟨_, rfl, Tokenizer.readable_ofText program⟩, fun task _ => task.sound_of_true⟩
  exact (readsText_invariant.sound_after hstart n fun _ _ _ _ => trivial).machine

end PathScript
