import PathScript.Proofs.Lexemes

/-!
# Lexing a Whole Text

A program is split into lexemes line by line, because it is read that way. But what
its lexemes are does not depend on its being read in lines: the grammar can as well
be stated for a text as a whole, if a comment is said to end at a line feed and not
with the line. This works because a line feed is a separator, so that no lexeme goes
on from one line to the next, and because it ends a comment, so that what a line
delivers does not depend on the lines before it.

## Main definitions

* `scanText`: The lexemes of a text, as characters.
* `textLexemes`: The lexemes of a text.
* `linesOf`: The lines of a text.
* `CutAfterLineFeeds`: What lines of a text are.

## Theorems

* `scanText_append`: The lexemes up to a line feed are those of a line.
* `flatMap_lexemes_linesOf`: The lexemes of a text are those of its lines.
* `cutAfterLineFeeds_linesOf`: The lines of a text are what they should be.
-/

namespace PathScript

/-- The lexemes of a text, as characters. A comment ends before the next line
    feed. -/
def scanText : List Char → List (List Char)
  | [] => []
  | c :: rest =>
      if isSeparator c then scanText rest
      else if c == commentMark then scanText (rest.dropWhile (· != '\n'))
      else if isBracket c then [c] :: scanText rest
      else (c :: rest.takeWhile isRegular) :: scanText (rest.dropWhile isRegular)
termination_by text => text.length
decreasing_by
  · exact Nat.lt_succ_self _
  · exact Nat.lt_succ_of_le (List.dropWhile_suffix _).length_le
  · exact Nat.lt_succ_self _
  · exact Nat.lt_succ_of_le (List.dropWhile_suffix isRegular).length_le

/-- The lexemes of a text. -/
def textLexemes (text : String) : List String := (scanText text.toList).map String.ofList

/-- The lines of a text, each with its line feed. -/
def linesOf (text : String) : List String :=
  (splitLines (· == '\n') text.toList).map String.ofList

/-- A text and the lines that it is cut into, one after each line feed. Each line has its
    line feed at the end and none before, but the last may lack it if there is something
    in it. -/
structure CutAfterLineFeeds (text : String) (lines : List String) : Prop where
  whole : lines.flatMap String.toList = text.toList
  line : ∀ before line after, lines = before ++ line :: after →
    ∃ body, '\n' ∉ body ∧
      (line.toList = body ++ ['\n'] ∨ line.toList = body ∧ body ≠ [] ∧ after = [])

/-- Regular characters at the beginning of a text are not affected by what follows,
    if that breaks off. -/
theorem takeWhile_regular_append (line : List Char) {rest : List Char} (h : BreaksOff rest) :
    (line ++ rest).takeWhile isRegular = line.takeWhile isRegular ∧
      (line ++ rest).dropWhile isRegular = line.dropWhile isRegular ++ rest := by
  induction line with
  | nil => exact ⟨takeWhile_append_of_head (List.forall_mem_nil _) h,
      dropWhile_append_of_head (List.forall_mem_nil _) h⟩
  | cons c line ih =>
      simp only [List.cons_append, List.takeWhile_cons, List.dropWhile_cons]
      split
      · exact ⟨by rw [ih.1], ih.2⟩
      · exact ⟨rfl, rfl⟩

/-- A text that is empty or begins with a line feed breaks off. -/
theorem breaksOff_of_lineFeed {rest : List Char} (h : ∀ c ∈ rest.head?, c = '\n') :
    BreaksOff rest := by
  intro c hc
  rw [h c hc]
  decide

/-- The line feed at the end of a line makes no difference to its lexemes. -/
theorem scanLexemes_lineFeed (line : List Char) :
    scanLexemes (line ++ ['\n']) = scanLexemes line := by
  -- Only a lexeme at the end of the line gets as far as the line feed, and ends there.
  have hbreaks : BreaksOff ['\n'] := breaksOff_cons (by decide)
  fun_induction scanLexemes line with
  | case1 =>
      rw [List.nil_append, scanLexemes, if_pos (by decide), scanLexemes]
  | case2 c rest hsep ih => rw [List.cons_append, scanLexemes, if_pos hsep, ih]
  | case3 c rest hsep hcomment =>
      rw [List.cons_append, scanLexemes, if_neg hsep, if_pos hcomment]
  | case4 c rest hsep hcomment hbracket ih =>
      rw [List.cons_append, scanLexemes, if_neg hsep, if_neg hcomment, if_pos hbracket, ih]
  | case5 c rest hsep hcomment hbracket ih =>
      rcases takeWhile_regular_append rest hbreaks with ⟨htake, hdrop⟩
      rw [List.cons_append, scanLexemes, if_neg hsep, if_neg hcomment, if_neg hbracket, htake,
        hdrop, ih]

/-- The lexemes up to a line feed, or to the end, are those of a line. -/
theorem scanText_append {line rest : List Char} (hline : ∀ c ∈ line, c ≠ '\n')
    (hrest : ∀ c ∈ rest.head?, c = '\n') :
    scanText (line ++ rest) = scanLexemes line ++ scanText rest := by
  have hbreaks := breaksOff_of_lineFeed hrest
  fun_induction scanLexemes line with
  | case1 => rfl
  | case2 c line hsep ih =>
      rw [List.cons_append, scanText, if_pos hsep, ih (List.forall_mem_cons.mp hline).2]
  | case3 c line hsep hcomment =>
      -- The comment takes the rest of the line, and nothing after it.
      have hdrop : (line ++ rest).dropWhile (· != '\n') = rest := by
        apply dropWhile_append_of_head
        · intro d hd
          exact bne_iff_ne.mpr ((List.forall_mem_cons.mp hline).2 d hd)
        · intro d hd
          simp [hrest d hd]
      rw [List.cons_append, scanText, if_neg hsep, if_pos hcomment, hdrop, List.nil_append]
  | case4 c line hsep hcomment hbracket ih =>
      rw [List.cons_append, scanText, if_neg hsep, if_neg hcomment, if_pos hbracket,
        ih (List.forall_mem_cons.mp hline).2, List.cons_append]
  | case5 c line hsep hcomment hbracket ih =>
      -- The lexeme does not go on past the line.
      rcases takeWhile_regular_append line hbreaks with ⟨htake, hdrop⟩
      have hplain : ∀ d ∈ line.dropWhile isRegular, d ≠ '\n' := by
        intro d hd
        exact (List.forall_mem_cons.mp hline).2 d ((List.dropWhile_suffix isRegular).subset hd)
      rw [List.cons_append, scanText, if_neg hsep, if_neg hcomment, if_neg hbracket, htake,
        hdrop, ih hplain, List.cons_append]

/-- What stands before the first line feed has none in it. -/
theorem not_mem_takeWhile_lineFeed (text : List Char) : '\n' ∉ text.takeWhile (!· == '\n') := by
  intro hmem
  have hne := List.all_eq_true.mp List.all_takeWhile _ hmem
  simp at hne

/-- What ends a line is a line feed. -/
theorem eq_lineFeed_of_dropWhile {text rest : List Char} {mark : Char}
    (h : text.dropWhile (!· == '\n') = mark :: rest) : mark = '\n' := by
  simpa using eq_false_of_dropWhile_cons h

/-- A line has its line feed at the end and none before, but the last may lack it. -/
theorem line_of_splitLines {text line : List Char} {before after : List (List Char)}
    (h : splitLines (· == '\n') text = before ++ line :: after) :
    ∃ body, '\n' ∉ body ∧ (line = body ++ ['\n'] ∨ line = body ∧ body ≠ [] ∧ after = []) := by
  fun_induction splitLines (· == '\n') text generalizing before with
  | case1 text hdrop hempty =>
      simp at h
  | case2 text hdrop hempty =>
      have hplain := not_mem_takeWhile_lineFeed text
      rw [takeWhile_of_dropWhile_nil hdrop] at hplain
      cases before with
      | nil =>
          rw [List.nil_append, List.cons.injEq] at h
          refine ⟨text, hplain, .inr ⟨h.1.symm, ?_, h.2.symm⟩⟩
          intro hnil
          exact hempty (List.isEmpty_iff.mpr hnil)
      | cons first before => simp at h
  | case3 text mark rest hdrop ih =>
      cases before with
      | nil =>
          rw [List.nil_append, List.cons.injEq, eq_lineFeed_of_dropWhile hdrop] at h
          exact ⟨_, not_mem_takeWhile_lineFeed text, .inl h.1.symm⟩
      | cons first before =>
          rw [List.cons_append, List.cons.injEq] at h
          exact ih h.2

/-- The lines of a text are what they should be. -/
theorem cutAfterLineFeeds_linesOf (text : String) : CutAfterLineFeeds text (linesOf text) where
  whole := by
    simp only [linesOf, List.flatMap_map, String.toList_ofList]
    exact List.flatMap_id.trans (splitLines_flatten _ _)
  line := by
    intro before line after h
    rcases List.map_eq_append_iff.mp h with ⟨before', rest, hsplit, _, hrest⟩
    rcases List.map_eq_cons_iff.mp hrest with ⟨line', after', rfl, rfl, rfl⟩
    rw [String.toList_ofList, List.map_eq_nil_iff]
    exact line_of_splitLines hsplit

/-- The lexemes of a text are those of its lines. -/
theorem flatMap_scanLexemes_splitLines (text : List Char) :
    (splitLines (· == '\n') text).flatMap scanLexemes = scanText text := by
  have hplain : ∀ text : List Char, ∀ c ∈ text.takeWhile (!· == '\n'), c ≠ '\n' := by
    rintro text c hc rfl
    exact not_mem_takeWhile_lineFeed text hc
  fun_induction splitLines (· == '\n') text with
  | case1 text h hempty =>
      rw [List.isEmpty_iff.mp hempty, scanText, List.flatMap_nil]
  | case2 text h hempty =>
      have hall := takeWhile_of_dropWhile_nil h
      have hscan : scanText (text ++ []) = scanLexemes text ++ scanText [] :=
        scanText_append (hall ▸ hplain text) (by simp)
      rw [List.append_nil] at hscan
      rw [hscan, scanText, List.flatMap_cons, List.flatMap_nil]
  | case3 text mark rest h ih =>
      have hmark := eq_lineFeed_of_dropWhile h
      have hsplit := text.takeWhile_append_dropWhile (p := (!· == '\n'))
      rw [h, hmark] at hsplit
      have hscan : scanText (text.takeWhile (!· == '\n') ++ '\n' :: rest)
          = scanLexemes (text.takeWhile (!· == '\n')) ++ scanText ('\n' :: rest) :=
        scanText_append (hplain text) (by simp)
      rw [hsplit] at hscan
      -- The line feed between two lines is only a separator.
      have hfeed : scanText ('\n' :: rest) = scanText rest := by
        rw [scanText, if_pos (by decide)]
      rw [hmark, hscan, hfeed, List.flatMap_cons, scanLexemes_lineFeed, ih]

/-- The lexemes of a text are those of its lines. -/
theorem flatMap_lexemes_linesOf (text : String) :
    (linesOf text).flatMap lexemes = textLexemes text := by
  rw [textLexemes, ← flatMap_scanLexemes_splitLines, linesOf, List.flatMap_map, List.map_flatMap]
  simp only [lexemes, String.toList_ofList]

end PathScript
