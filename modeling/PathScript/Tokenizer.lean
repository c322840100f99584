import PathScript.Lexeme
import PathScript.Text.Codec

/-!
# The Tokenizer

A program as the interpreter reads it: one lexeme after the other, with a
count of the lines read so far. Lines are read no earlier than needed, which
shows in two ways. The count is that of the last line looked at, so an error
can be placed; and the operator that passes over font definitions discards
whole lines that have not been looked at yet, up to one that equals a marker.

A source is text or bytes. Bytes are cut into lines first and each line is
decoded on its own, so a line that cannot be decoded does no harm until it is
reached. When it is reached it is passed over without being counted.

`Tokenizer.size` bounds what is left: every lexeme delivered and every line
read makes it smaller. It is what makes running a program a terminating
activity.

## Main definitions

* `Tokenizer`: What is left of a source, and the number of lines read.
* `Tokenizer.ofText`, `Tokenizer.decoded`, `Tokenizer.ofBytes`: A source not yet read.
* `Tokenizer.next`: The next lexeme.
* `Tokenizer.skipTo`: Passing over lines up to a marker.
* `Tokenizer.drain`: All lexemes that are left.
* `Tokenizer.size`: A bound on what is left.

## Theorems

* `Tokenizer.size_next_lt`: Delivering a lexeme makes the tokenizer smaller.
* `Tokenizer.size_next_le`: Asking for a lexeme never makes it larger.
* `Tokenizer.size_skipTo_le`: Nor does passing over lines.
-/

namespace PathScript

/-- A line not yet read, with its line end; `error` if it cannot be
    decoded. -/
abbrev RawLine := Except DecodeError String

/-- What is left of a source, and the number of lines read. -/
structure Tokenizer where
  /-- The number of lines read so far. -/
  line : Nat
  /-- The lexemes of the last line read that have not been delivered. -/
  pending : List String
  /-- The lines that have not been read. -/
  unread : List RawLine

/-- The lexemes a line holds; a line that cannot be decoded has none. -/
def RawLine.lexemes : RawLine → List String
  | .ok text => PathScript.lexemes text
  | .error _ => []

namespace Tokenizer

/-- A source of text. -/
def ofText (text : String) : Tokenizer where
  line := 0
  pending := []
  unread := (splitLines (· == '\n') text.toList).map fun line => .ok (String.ofList line)

/-- A source of bytes, decoded line by line. -/
def decoded (decode : List UInt8 → Except DecodeError (List Char)) (bytes : List UInt8) :
    Tokenizer where
  line := 0
  pending := []
  unread := (splitLines (· == 10) bytes).map fun line => (decode line).map String.ofList

/-- A source of bytes, decoded under the codec with the given name. -/
def ofBytes (codec : String) (bytes : List UInt8) : Tokenizer :=
  decoded (decodeNamed codec) bytes

/-- The first lexeme of the unread lines. The lines up to the one that holds it
    are read, and counted from `line`. -/
def nextLine (line : Nat) : List RawLine → Except DecodeError (Option String) × Tokenizer
  | [] => (.ok none, ⟨line, [], []⟩)
  | .error e :: unread => (.error e, ⟨line, [], unread⟩)
  | .ok text :: unread =>
      match lexemes text with
      | [] => nextLine (line + 1) unread
      | lexeme :: pending => (.ok (some lexeme), ⟨line + 1, pending, unread⟩)

/-- The next lexeme, or `none` at the end of the source. -/
def next (t : Tokenizer) : Except DecodeError (Option String) × Tokenizer :=
  match t.pending with
  | lexeme :: pending => (.ok (some lexeme), { t with pending := pending })
  | [] => nextLine t.line t.unread

/-- A line without its line end: all carriage returns and line feeds at its end
    are taken off. -/
def stripLineEnd (text : String) : String :=
  String.ofList
    (text.toList.reverse.dropWhile fun c => c == '\r' || c == '\n').reverse

/-- The outcome of passing over lines. -/
structure Skipped where
  /-- Whether a line equal to the marker was found, unless a line before it
      could not be decoded. -/
  found : Except DecodeError Bool
  /-- The number of lines passed over. -/
  count : Nat
  /-- What is left. -/
  rest : Tokenizer

/-- Passes over unread lines up to and with the first that equals the marker,
    counting lines from `line` and lines passed over from `count`. -/
def skipLines (marker : Option String) (line count : Nat) : List RawLine → Skipped
  | [] => ⟨.ok false, count, ⟨line, [], []⟩⟩
  | .error e :: unread => ⟨.error e, count, ⟨line, [], unread⟩⟩
  | .ok text :: unread =>
      if some (stripLineEnd text) == marker then ⟨.ok true, count + 1, ⟨line + 1, [], unread⟩⟩
      else skipLines marker (line + 1) (count + 1) unread

/-- Discards the rest of the current line, then whole lines up to and with the
    first that equals the marker. Without a marker, no line does. -/
def skipTo (t : Tokenizer) (marker : Option String) : Skipped :=
  skipLines marker t.line 0 t.unread

/-- A bound on what unread lines hold: one for each lexeme and one for each
    line. -/
def unreadSize : List RawLine → Nat
  | [] => 0
  | line :: unread => line.lexemes.length + 1 + unreadSize unread

/-- A bound on what is left. -/
def size (t : Tokenizer) : Nat := t.pending.length + unreadSize t.unread

/-- Reading on to the next lexeme uses up at least a line or finds the end. -/
theorem size_nextLine_le (line : Nat) (unread : List RawLine) :
    (nextLine line unread).2.size ≤ size ⟨line, [], unread⟩ := by
  induction unread generalizing line with
  | nil => exact Nat.le_refl _
  | cons raw unread ih =>
      cases raw with
      | error e =>
          simp only [nextLine, size, unreadSize, List.length_nil]
          omega
      | ok text =>
          unfold nextLine
          split
          · have h := ih (line + 1)
            simp only [size, unreadSize, List.length_nil] at h ⊢
            omega
          · next lexeme pending hlex =>
              simp only [size, unreadSize, List.length_nil, RawLine.lexemes,
                hlex, List.length_cons]
              omega

/-- Asking for a lexeme never makes the tokenizer larger. -/
theorem size_next_le (t : Tokenizer) : t.next.2.size ≤ t.size := by
  unfold next
  split
  · next lexeme pending hpending =>
      simp only [size, hpending, List.length_cons]
      omega
  · next hpending =>
      have h := size_nextLine_le t.line t.unread
      simp only [size, hpending] at h ⊢
      exact h

/-- A lexeme found on a later line leaves less than there was. -/
theorem size_nextLine_lt (line : Nat) (unread : List RawLine) (lexeme : String)
    (h : (nextLine line unread).1 = .ok (some lexeme)) :
    (nextLine line unread).2.size < size ⟨line, [], unread⟩ := by
  induction unread generalizing line with
  | nil => exact absurd h (by simp [nextLine])
  | cons raw unread ih =>
      cases raw with
      | error e => exact absurd h (by simp [nextLine])
      | ok text =>
          unfold nextLine at h ⊢
          split
          · next hlex =>
              rw [hlex] at h
              have hlt := ih (line + 1) h
              simp only [size, unreadSize, List.length_nil] at hlt ⊢
              omega
          · next lexeme pending hlex =>
              simp only [size, unreadSize, List.length_nil, RawLine.lexemes,
                hlex, List.length_cons]
              omega

/-- Delivering a lexeme makes the tokenizer smaller. -/
theorem size_next_lt (t : Tokenizer) (lexeme : String)
    (h : t.next.1 = .ok (some lexeme)) : t.next.2.size < t.size := by
  unfold next at h ⊢
  split
  · next first pending hpending =>
      simp only [size, hpending, List.length_cons]
      omega
  · next hpending =>
      rw [hpending] at h
      have hlt := size_nextLine_lt t.line t.unread lexeme h
      simp only [size, hpending] at hlt ⊢
      exact hlt

/-- Passing over unread lines leaves no more than there was. -/
theorem size_skipLines_le (marker : Option String) (line count : Nat) (unread : List RawLine) :
    (skipLines marker line count unread).rest.size ≤ size ⟨line, [], unread⟩ := by
  induction unread generalizing line count with
  | nil => exact Nat.le_refl _
  | cons raw unread ih =>
      cases raw with
      | error e =>
          simp only [skipLines, size, unreadSize, List.length_nil]
          omega
      | ok text =>
          unfold skipLines
          split
          · simp only [size, unreadSize, List.length_nil]
            omega
          · have h := ih (line + 1) (count + 1)
            simp only [size, unreadSize, List.length_nil] at h ⊢
            omega

/-- Passing over lines never makes the tokenizer larger. -/
theorem size_skipTo_le (t : Tokenizer) (marker : Option String) :
    (t.skipTo marker).rest.size ≤ t.size := by
  have h := size_skipLines_le marker t.line 0 t.unread
  simp only [size, List.length_nil] at h
  simp only [skipTo, size]
  omega

/-- All lexemes that are left, up to the first line that cannot be decoded,
    and what is left after them. -/
def drain (t : Tokenizer) : Except DecodeError (List String) × Tokenizer :=
  match h : t.next with
  | (.error e, rest) => (.error e, rest)
  | (.ok none, rest) => (.ok [], rest)
  | (.ok (some lexeme), rest) =>
      have : rest.size < t.size := by
        have hlt := size_next_lt t lexeme (by rw [h])
        rwa [h] at hlt
      let (lexemes, left) := rest.drain
      (lexemes.map (lexeme :: ·), left)
termination_by t.size

end Tokenizer

end PathScript
