import PathScript.Interpreter

/-!
# What Lines Deliver

Not every string is a lexeme. A lexeme is a bracket or a brace alone, or a
character that begins one and any number of characters that continue it, and
every string of that form is delivered by the line that consists of it. So the
form says exactly what a program can be made of.

Written side by side, lexemes stay apart if what follows each of them cannot
continue it: a separator, a bracket, a solidus, or the end of the line. This is
how a text is put together that is to be split into given lexemes.

Two things follow for programs. A lexeme that begins with a brace is that
brace. And whatever a tokenizer does, all that waits to be delivered is
lexemes.

## Main definitions

* `IsLexeme`: What some line delivers.
* `lexemeChars`: The form of what lines deliver.
* `BreaksOff`: A text that does not continue a lexeme before it.
* `Tokenizer.Delivers`: A tokenizer with nothing pending but lexemes.

## Theorems

* `isLexeme_iff`: Lines deliver exactly what has the form.
* `scanLexemes_append`: A lexeme before a text that does not continue it.
* `eq_openBrace_of_beginsProcedure`: What begins a procedure is an open brace.
* `Tokenizer.isLexeme_of_next`, `Tokenizer.delivers_next`,
  `Tokenizer.delivers_skipTo`: Reading and passing over lines.
-/

namespace PathScript

/-- What some line delivers. -/
def IsLexeme (lexeme : String) : Prop := ∃ line, lexeme ∈ lexemes line

/-- The form of what lines deliver: a bracket alone, or a character that begins a
    lexeme and any number of characters that continue it. -/
def lexemeChars : List Char → Bool
  | [] => false
  | first :: rest =>
      if isBracket first then rest.isEmpty
      else !isSeparator first && first != commentMark && rest.all isRegular

/-- A text that does not continue a lexeme before it. -/
def BreaksOff (text : List Char) : Prop := ∀ c ∈ text.head?, isRegular c = false

theorem breaksOff_nil : BreaksOff [] := nofun

theorem breaksOff_cons {first : Char} {rest : List Char} (h : isRegular first = false) :
    BreaksOff (first :: rest) := by
  intro c hc
  rw [List.head?_cons, Option.mem_some_iff] at hc
  rw [← hc]
  exact h

/-- What is scanned from a character that begins a lexeme has the form. -/
theorem lexemeChars_takeWhile {first : Char} (hsep : ¬ isSeparator first = true)
    (hcomment : ¬ (first == commentMark) = true) (hbracket : ¬ isBracket first = true)
    (rest : List Char) : lexemeChars (first :: rest.takeWhile isRegular) = true := by
  simp only [lexemeChars, if_neg hbracket, Bool.eq_false_iff.mpr hsep, List.all_takeWhile,
    Bool.not_false, Bool.true_and, Bool.and_true]
  exact bne_iff_ne.mpr fun heq => hcomment (beq_iff_eq.mpr heq)

theorem lexemeChars_of_mem_scanLexemes {chars line : List Char} (h : chars ∈ scanLexemes line) :
    lexemeChars chars = true := by
  fun_induction scanLexemes line with
  | case1 => exact absurd h List.not_mem_nil
  | case2 first rest hsep ih => exact ih h
  | case3 first rest hsep hcomment => exact absurd h List.not_mem_nil
  | case4 first rest hsep hcomment hbracket ih =>
      rcases List.mem_cons.mp h with rfl | htail
      · simp only [lexemeChars, hbracket, if_true, List.isEmpty_nil]
      · exact ih htail
  | case5 first rest hsep hcomment hbracket ih =>
      rcases List.mem_cons.mp h with rfl | htail
      · exact lexemeChars_takeWhile hsep hcomment hbracket rest
      · exact ih htail

/-- Members with a property are taken up to the first that does not have it. -/
theorem takeWhile_append_of_head {α : Type} {p : α → Bool} {first rest : List α}
    (hfirst : ∀ a ∈ first, p a = true) (hrest : ∀ a ∈ rest.head?, p a = false) :
    (first ++ rest).takeWhile p = first := by
  rw [List.takeWhile_append_of_pos hfirst]
  cases rest with
  | nil => exact List.append_nil _
  | cons a rest =>
      have ha := hrest a rfl
      rw [List.takeWhile_cons_of_neg (Bool.eq_false_iff.mp ha), List.append_nil]

/-- They are dropped up to there. -/
theorem dropWhile_append_of_head {α : Type} {p : α → Bool} {first rest : List α}
    (hfirst : ∀ a ∈ first, p a = true) (hrest : ∀ a ∈ rest.head?, p a = false) :
    (first ++ rest).dropWhile p = rest := by
  rw [List.dropWhile_append_of_pos hfirst]
  cases rest with
  | nil => rfl
  | cons a rest =>
      have ha := hrest a rfl
      rw [List.dropWhile_cons_of_neg (Bool.eq_false_iff.mp ha)]

/-- If all are dropped, all have the property. -/
theorem takeWhile_of_dropWhile_nil {α : Type} {p : α → Bool} {items : List α}
    (h : items.dropWhile p = []) : items.takeWhile p = items := by
  have hsplit := items.takeWhile_append_dropWhile (p := p)
  rwa [h, List.append_nil] at hsplit

/-- The first that is not dropped does not have it. -/
theorem eq_false_of_dropWhile_cons {α : Type} {p : α → Bool} {items rest : List α} {a : α}
    (h : items.dropWhile p = a :: rest) : p a = false := by
  have hhead := List.head?_dropWhile_not p items
  rw [h] at hhead
  exact hhead

theorem isBracket_iff {c : Char} :
    isBracket c = true ↔ c = '[' ∨ c = ']' ∨ c = '\x7b' ∨ c = '\x7d' := by
  simp only [isBracket, Bool.or_eq_true, beq_iff_eq, or_assoc]

/-- A bracket is a lexeme whatever follows it. -/
theorem scanLexemes_bracket {first : Char} (h : isBracket first = true) (rest : List Char) :
    scanLexemes (first :: rest) = [first] :: scanLexemes rest := by
  -- It is neither a separator nor the beginning of a comment.
  have hplain : isSeparator first = false ∧ (first == commentMark) = false := by
    rcases isBracket_iff.mp h with rfl | rfl | rfl | rfl <;> decide
  rw [scanLexemes]
  simp only [hplain, h, Bool.false_eq_true, if_false, if_true]

/-- A lexeme before a text that does not continue it. -/
theorem scanLexemes_append {chars rest : List Char} (hchars : lexemeChars chars = true)
    (hrest : BreaksOff rest) : scanLexemes (chars ++ rest) = chars :: scanLexemes rest := by
  cases chars with
  | nil => exact absurd hchars Bool.false_ne_true
  | cons first tail =>
      rw [lexemeChars] at hchars
      by_cases hbracket : isBracket first = true
      · rw [if_pos hbracket] at hchars
        rw [List.isEmpty_iff.mp hchars]
        exact scanLexemes_bracket hbracket rest
      · rw [if_neg hbracket] at hchars
        simp only [Bool.and_eq_true, Bool.not_eq_true', bne_iff_ne] at hchars
        have hcomment : (first == commentMark) = false := beq_eq_false_iff_ne.mpr hchars.1.2
        have hregular := List.all_eq_true.mp hchars.2
        rw [List.cons_append, scanLexemes, takeWhile_append_of_head hregular hrest,
          dropWhile_append_of_head hregular hrest]
        simp only [hchars.1.1, hcomment, hbracket, Bool.false_eq_true, if_false]

/-- Lines deliver exactly what has the form. -/
theorem isLexeme_iff {lexeme : String} : IsLexeme lexeme ↔ lexemeChars lexeme.toList = true := by
  constructor
  · rintro ⟨line, hmem⟩
    rcases List.mem_map.mp hmem with ⟨chars, hchars, rfl⟩
    rw [String.toList_ofList]
    exact lexemeChars_of_mem_scanLexemes hchars
  · intro h
    -- The line that consists of the lexeme delivers it.
    refine ⟨lexeme, List.mem_map.mpr ⟨lexeme.toList, ?_, String.ofList_toList⟩⟩
    have hscan := scanLexemes_append h breaksOff_nil
    rw [List.append_nil] at hscan
    rw [hscan]
    exact List.mem_cons_self

/-- What begins a procedure is an open brace. -/
theorem eq_openBrace_of_beginsProcedure {lexeme : String} (hlexeme : IsLexeme lexeme)
    (hbegins : Machine.beginsProcedure lexeme = true) : lexeme = openBrace := by
  have hchars := isLexeme_iff.mp hlexeme
  have h : lexeme.toList.head? = some '\x7b' := beq_iff_eq.mp hbegins
  rcases hlist : lexeme.toList with _ | ⟨first, rest⟩
  · rw [hlist] at h
    exact absurd h (by simp only [List.head?_nil, reduceCtorEq, not_false_eq_true])
  · rw [hlist] at hchars h
    rw [List.head?_cons, Option.some.injEq] at h
    have hbracket : isBracket first = true := by rw [h]; decide
    rw [lexemeChars, if_pos hbracket] at hchars
    rw [← String.ofList_toList (s := lexeme), hlist, h, List.isEmpty_iff.mp hchars]
    rfl

namespace Tokenizer

/-- A tokenizer with nothing pending but lexemes. -/
def Delivers (t : Tokenizer) : Prop := ∀ lexeme ∈ t.pending, IsLexeme lexeme

/-- Reading on to the next lexeme finds one that a line delivers, and the lexemes
    left pending are of the same line. -/
theorem delivers_nextLine (line : Nat) (unread : List RawLine) :
    (∀ lexeme, (nextLine line unread).1 = .ok (some lexeme) → IsLexeme lexeme) ∧
      (nextLine line unread).2.Delivers := by
  induction unread generalizing line with
  | nil => exact ⟨nofun, nofun⟩
  | cons raw unread ih =>
      cases raw with
      | error e => exact ⟨nofun, nofun⟩
      | ok text =>
          unfold nextLine
          split
          · exact ih (line + 1)
          · next first pending hlexemes =>
              have hline : ∀ lexeme ∈ first :: pending, IsLexeme lexeme :=
                fun lexeme hmem => ⟨text, by rwa [hlexemes]⟩
              refine ⟨fun lexeme h => ?_, fun lexeme hmem => hline lexeme (List.mem_cons_of_mem _ hmem)⟩
              rw [← Option.some.inj (Except.ok.inj h)]
              exact hline first List.mem_cons_self

/-- What is delivered next is a lexeme. -/
theorem isLexeme_of_next {t : Tokenizer} (ht : t.Delivers) {lexeme : String}
    (h : t.next.1 = .ok (some lexeme)) : IsLexeme lexeme := by
  unfold next at h
  split at h
  · next first pending hpending =>
      rw [← Option.some.inj (Except.ok.inj h)]
      exact ht first (by rw [hpending]; exact List.mem_cons_self)
  · exact (delivers_nextLine t.line t.unread).1 lexeme h

theorem delivers_next {t : Tokenizer} (ht : t.Delivers) : t.next.2.Delivers := by
  unfold next
  split
  · next first pending hpending =>
      intro lexeme hmem
      exact ht lexeme (by rw [hpending]; exact List.mem_cons_of_mem _ hmem)
  · exact (delivers_nextLine t.line t.unread).2

/-- Passing over lines leaves nothing pending. -/
theorem pending_skipLines (marker : Option String) (line count : Nat) (unread : List RawLine) :
    (skipLines marker line count unread).rest.pending = [] := by
  induction unread generalizing line count with
  | nil => rfl
  | cons raw unread ih =>
      cases raw with
      | error e => rfl
      | ok text =>
          unfold skipLines
          split
          · rfl
          · exact ih (line + 1) (count + 1)

theorem delivers_skipTo (t : Tokenizer) (marker : Option String) :
    (t.skipTo marker).rest.Delivers := by
  intro lexeme hmem
  rw [skipTo, pending_skipLines] at hmem
  exact absurd hmem List.not_mem_nil

end Tokenizer

end PathScript
