import PathScript.Run

/-!
# Capturing Procedures

An open brace begins a procedure. Its body is what follows, up to the brace
that closes it, and the lexemes in between are kept as they stand, inner
braces included.

The lexemes may come from a list, when the brace stands in a procedure that is
running, or from the source. Both ways count braces the same.

## Main definitions

* `capture`: The body of a procedure, from a list of lexemes.
* `Tokenizer.capture`: The body of a procedure, from a source.

## Theorems

* `length_of_capture`: What follows a body is shorter than what was given.
* `Tokenizer.size_capture_le`: Capturing does not add to the source.
-/

namespace PathScript

/-- The lexeme that opens a procedure inside another. -/
def openBrace : String := "\x7b"

/-- The lexeme that closes a procedure. -/
def closeBrace : String := "\x7d"

/-- The body of a procedure with `inner` further ones open inside it, and the
    lexemes after it. If the lexemes end first, the number of procedures that
    are still open. -/
def capture (inner : Nat) : List String → Except Nat (List String × List String)
  | [] => .error (inner + 1)
  | lexeme :: rest =>
      let keep (inner : Nat) : Except Nat (List String × List String) :=
        (capture inner rest).map fun found => (lexeme :: found.1, found.2)
      if lexeme = openBrace then keep (inner + 1)
      else if lexeme = closeBrace then
        match inner with
        | 0 => .ok ([], rest)
        | outer + 1 => keep outer
      else keep inner

/-- What follows a body is shorter than what was given. -/
theorem length_of_capture (inner : Nat) (lexemes body rest : List String)
    (h : capture inner lexemes = .ok (body, rest)) : rest.length < lexemes.length := by
  induction lexemes generalizing inner body with
  | nil => exact absurd h (by simp [capture])
  | cons lexeme tail ih =>
      -- Whatever is kept, the body goes on in the tail.
      have hkeep : ∀ k, (capture k tail).map (fun found => (lexeme :: found.1, found.2))
          = .ok (body, rest) → rest.length < (lexeme :: tail).length := by
        intro k hk
        cases hfound : capture k tail with
        | error open_ => exact absurd hk (by simp [hfound, Except.map])
        | ok found =>
            rcases found with ⟨inside, left⟩
            simp only [hfound, Except.map, Except.ok.injEq, Prod.mk.injEq] at hk
            have hlt := ih k inside (by rw [hfound, hk.2])
            simp only [List.length_cons]
            omega
      unfold capture at h
      split at h
      · exact hkeep _ h
      · split at h
        · split at h
          · simp only [Except.ok.injEq, Prod.mk.injEq] at h
            simp only [← h.2, List.length_cons]
            omega
          · exact hkeep _ h
        · exact hkeep _ h

namespace Tokenizer

/-- Why a body could not be captured from a source. -/
inductive CaptureError where
  /-- The source ended with so many procedures open. -/
  | unclosed (depth : Nat)
  /-- A line could not be decoded. -/
  | decoding (e : DecodeError)

/-- The body of a procedure with `inner` further ones open inside it, read from
    a source, and what is left of the source. -/
def capture (inner : Nat) (t : Tokenizer) : Except CaptureError (List String) × Tokenizer :=
  match h : t.next with
  | (.error e, rest) => (.error (.decoding e), rest)
  | (.ok none, rest) => (.error (.unclosed (inner + 1)), rest)
  | (.ok (some lexeme), rest) =>
      have hlt : rest.size < t.size := by
        have := size_next_lt t lexeme (by rw [h])
        rwa [h] at this
      if lexeme = openBrace then
        let found := rest.capture (inner + 1)
        (found.1.map (lexeme :: ·), found.2)
      else if lexeme = closeBrace then
        match inner with
        | 0 => (.ok [], rest)
        | outer + 1 =>
            let found := rest.capture outer
            (found.1.map (lexeme :: ·), found.2)
      else
        let found := rest.capture inner
        (found.1.map (lexeme :: ·), found.2)
termination_by t.size

/-- Capturing does not add to the source. -/
theorem size_capture_le (inner : Nat) (t : Tokenizer) : (t.capture inner).2.size ≤ t.size := by
  fun_induction capture inner t with
  | case1 inner t e rest h =>
      have hle := size_next_le t
      rwa [h] at hle
  | case2 inner t rest h =>
      have hle := size_next_le t
      rwa [h] at hle
  | case3 inner t rest found h hlt ih => exact Nat.le_trans ih (Nat.le_of_lt hlt)
  | case4 t rest h hlt hopen => exact Nat.le_of_lt hlt
  | case5 t rest outer found h hlt hopen ih =>
      exact Nat.le_trans ih (Nat.le_of_lt hlt)
  | case6 inner t lexeme rest h hlt hopen hclose found ih =>
      exact Nat.le_trans ih (Nat.le_of_lt hlt)

end Tokenizer

end PathScript
