import PathScript.Proofs.Lexemes

/-!
# The Grammar of Lexemes

What the lexemes of a line are, without reference to how they are found. Put
together they are the part of the line before its comment, less the separators, so
nothing is lost and nothing comes twice. Each has the form of a lexeme. And they
are as long as they can be, and no longer: two characters that stand next to each
other in the line stay together just if neither is a separator or a bracket and the
second does not begin a name.

The last of these needs to know where characters end up. The lexemes themselves do
not say where in the line they come from, but put together they are the characters
that are not separators. So the place of a character among those tells in which
lexeme it is.

## Main definitions

* `beforeComment`: The part of a line before its comment.
* `visible`: The characters that are not separators.
* `pieceAt`, `lexemeAt`: The number of the lexeme in which a character ends up.
* `Together`: Neighbours that end up in the same lexeme.
* `joins`: Whether a character stays together with the one before.
* `Grouped`: Lexemes that hold just those neighbours together that join.
* `Lexed`: The lexemes of a text, by its beginning.

## Theorems

* `form_of_lexemeChars`: The form of lexemes, character by character.
* `Grouped.separator`, `Grouped.word`: A separator and a lexeme before a text.
* `lexed_scanLexemes`: Scanning a line finds the lexemes of the part before its comment.
* `Lexed.flatten_eq`: Nothing is lost and nothing comes twice.
* `Lexed.grouped`: Neighbours stay together just if they join.
* `lexemes_follow_grammar`: All of this for the lexemes of a line.
-/

namespace PathScript

/-- The part of a line before its comment. -/
def beforeComment (line : List Char) : List Char := line.takeWhile (· != commentMark)

/-- The characters of a text that are not separators. -/
def visible (text : List Char) : List Char := text.filter (!isSeparator ·)

/-- The number of the piece that holds the character at an index, if the pieces are put
    together. -/
def pieceAt : List (List Char) → Nat → Option Nat
  | [], _ => none
  | piece :: pieces, i =>
      if i < piece.length then some 0 else (pieceAt pieces (i - piece.length)).map (· + 1)

/-- The number of the lexeme in which the character at an index of a text ends up, given
    the lexemes of the text. A separator ends up in none. -/
def lexemeAt (lexemes : List (List Char)) (text : List Char) (i : Nat) : Option Nat :=
  match text[i]? with
  | some c => if isSeparator c then none else pieceAt lexemes (visible (text.take i)).length
  | none => none

/-- Neighbours in a text that end up in the same lexeme. -/
def Together (lexemes : List (List Char)) (text : List Char) (i : Nat) : Prop :=
  ∃ k, lexemeAt lexemes text i = some k ∧ lexemeAt lexemes text (i + 1) = some k

/-- Whether the second of two neighbours stays together with the first: neither is a
    separator or a bracket, and the second does not begin a name. -/
def joins (c d : Char) : Bool :=
  !isSeparator c && !isBracket c && !isSeparator d && !isBracket d && d != nameMark

/-- Lexemes that hold just those neighbours together that join. -/
def Grouped (lexemes : List (List Char)) (text : List Char) : Prop :=
  ∀ {i : Nat} {c d : Char}, text[i]? = some c → text[i + 1]? = some d →
    (Together lexemes text i ↔ joins c d = true)

theorem visible_append (first second : List Char) :
    visible (first ++ second) = visible first ++ visible second := List.filter_append ..

theorem visible_eq_self {word : List Char} (h : ∀ c ∈ word, isSeparator c = false) :
    visible word = word :=
  List.filter_eq_self.mpr fun c hc => by rw [h c hc]; rfl

theorem beforeComment_append {word : List Char} (h : ∀ c ∈ word, c ≠ commentMark)
    (rest : List Char) : beforeComment (word ++ rest) = word ++ beforeComment rest :=
  List.takeWhile_append_of_pos fun c hc => bne_iff_ne.mpr (h c hc)

/-- What is regular is no separator, no bracket, and begins neither a comment nor a name. -/
theorem isRegular_iff {c : Char} : isRegular c = true ↔
    isSeparator c = false ∧ isBracket c = false ∧ c ≠ commentMark ∧ c ≠ nameMark := by
  simp only [isRegular, Bool.and_eq_true, Bool.not_eq_true', bne_iff_ne, and_assoc]

/-- What a lexeme is, character by character. -/
theorem form_of_lexemeChars {chars : List Char} (h : lexemeChars chars = true) :
    chars ≠ [] ∧ ((∃ c, isBracket c = true ∧ chars = [c]) ∨
      (∀ c ∈ chars, isSeparator c = false ∧ c ≠ commentMark ∧ isBracket c = false) ∧
        nameMark ∉ chars.tail) := by
  cases chars with
  | nil => exact absurd h Bool.false_ne_true
  | cons first rest =>
      refine ⟨List.cons_ne_nil _ _, ?_⟩
      rw [lexemeChars] at h
      by_cases hbracket : isBracket first = true
      · rw [if_pos hbracket] at h
        exact Or.inl ⟨first, hbracket, by rw [List.isEmpty_iff.mp h]⟩
      · rw [if_neg hbracket] at h
        simp only [Bool.and_eq_true, Bool.not_eq_true', bne_iff_ne, List.all_eq_true] at h
        rcases h with ⟨⟨hseparator, hcomment⟩, hrest⟩
        refine Or.inr ⟨List.forall_mem_cons.mpr ⟨⟨hseparator, hcomment,
          Bool.eq_false_iff.mpr hbracket⟩, fun c hc => ?_⟩, fun hname => ?_⟩
        · rcases isRegular_iff.mp (hrest c hc) with ⟨hseparator, hbracket, hcomment, _⟩
          exact ⟨hseparator, hcomment, hbracket⟩
        · exact (isRegular_iff.mp (hrest _ hname)).2.2.2 rfl

/-- A lexeme holds no separator and no beginning of a comment. -/
theorem plain_of_lexemeChars {chars : List Char} (h : lexemeChars chars = true) :
    ∀ c ∈ chars, isSeparator c = false ∧ c ≠ commentMark := by
  rcases (form_of_lexemeChars h).2 with ⟨c, hbracket, rfl⟩ | ⟨hplain, _⟩
  · refine List.forall_mem_singleton.mpr ?_
    rcases isBracket_iff.mp hbracket with rfl | rfl | rfl | rfl <;> decide
  · exact fun c hc => ⟨(hplain c hc).1, (hplain c hc).2.1⟩

/-- Neighbours within a lexeme join. -/
theorem joins_of_lexemeChars {chars : List Char} (h : lexemeChars chars = true) {i : Nat}
    {c d : Char} (hc : chars[i]? = some c) (hd : chars[i + 1]? = some d) : joins c d = true := by
  rcases (form_of_lexemeChars h).2 with ⟨b, _, rfl⟩ | ⟨hplain, hname⟩
  · exact absurd hd (by simp)
  · have hc' := hplain c (List.mem_of_getElem? hc)
    have hd' := hplain d (List.mem_of_getElem? hd)
    have hne : d ≠ nameMark := by
      rintro rfl
      refine hname (List.mem_of_getElem? (i := i) ?_)
      rw [List.getElem?_tail]
      exact hd
    simp only [joins, hc', hd', Bool.not_false, Bool.true_and, bne_iff_ne]
    exact hne

section

variable {word : List Char} (hword : ∀ c ∈ word, isSeparator c = false)
  (lexemes : List (List Char)) (text : List Char)
include hword

/-- The characters of the first lexeme end up in it. -/
theorem lexemeAt_left {i : Nat} (hi : i < word.length) :
    lexemeAt (word :: lexemes) (word ++ text) i = some 0 := by
  have hvisible : visible ((word ++ text).take i) = word.take i := by
    rw [List.take_append_of_le_length (Nat.le_of_lt hi)]
    exact visible_eq_self fun c hc => hword c (List.mem_of_mem_take hc)
  have hchar : (word ++ text)[i]? = some (word.get ⟨i, hi⟩) := by
    rw [List.getElem?_append_left hi, List.getElem?_eq_getElem hi]
    rfl
  have hlength : (word.take i).length < word.length :=
    Nat.lt_of_le_of_lt (List.length_take_le i word) hi
  simp only [lexemeAt, hchar, hword _ (List.get_mem word ⟨i, hi⟩), Bool.false_eq_true, if_false,
    hvisible, pieceAt, if_pos hlength]

/-- What comes after the first lexeme ends up in the others. -/
theorem lexemeAt_right (i : Nat) :
    lexemeAt (word :: lexemes) (word ++ text) (word.length + i)
      = (lexemeAt lexemes text i).map (· + 1) := by
  have hvisible : visible ((word ++ text).take (word.length + i))
      = word ++ visible (text.take i) := by
    rw [List.take_length_add_append, visible_append, visible_eq_self hword]
  have hchar : (word ++ text)[word.length + i]? = text[i]? := by
    rw [List.getElem?_append_right (Nat.le_add_right _ _), Nat.add_sub_cancel_left]
  simp only [lexemeAt, hchar, hvisible, List.length_append, pieceAt]
  cases text[i]? with
  | none => rfl
  | some c =>
      have hbeyond : ¬ word.length + (visible (text.take i)).length < word.length :=
        Nat.not_lt.mpr (Nat.le_add_right _ _)
      by_cases hseparator : isSeparator c = true
      · simp only [hseparator, if_true, Option.map_none]
      · simp only [hseparator, if_neg hbeyond, Nat.add_sub_cancel_left]
        rfl

end

/-- A separator before a text changes nothing for the characters after it. -/
theorem lexemeAt_succ (lexemes : List (List Char)) {first : Char} (h : isSeparator first = true)
    (text : List Char) (i : Nat) :
    lexemeAt lexemes (first :: text) (i + 1) = lexemeAt lexemes text i := by
  have hvisible : visible ((first :: text).take (i + 1)) = visible (text.take i) := by
    rw [List.take_succ_cons, visible, List.filter_cons_of_neg (by simp [h]), visible]
  simp only [lexemeAt, List.getElem?_cons_succ, hvisible]

/-- A separator stays together with nothing. -/
theorem Grouped.separator {lexemes : List (List Char)} {text : List Char}
    (h : Grouped lexemes text) {first : Char} (hfirst : isSeparator first = true) :
    Grouped lexemes (first :: text) := by
  intro i c d hc hd
  cases i with
  | zero =>
      have hjoins : joins c d = false := by
        rw [← Option.some.inj hc, joins, hfirst]
        rfl
      have hnone : lexemeAt lexemes (first :: text) 0 = none := by
        simp only [lexemeAt, List.getElem?_cons_zero, hfirst, if_true]
      rw [hjoins, Together, hnone]
      simp
  | succ i =>
      rw [Together, lexemeAt_succ _ hfirst, lexemeAt_succ _ hfirst]
      exact h hc hd

theorem exists_map_succ_iff {x y : Option Nat} :
    (∃ k, x.map (· + 1) = some k ∧ y.map (· + 1) = some k) ↔ ∃ k, x = some k ∧ y = some k := by
  cases x <;> cases y <;> simp

/-- A lexeme stays together, and apart from what does not join its last character. -/
theorem Grouped.word {lexemes : List (List Char)} {text : List Char} (h : Grouped lexemes text)
    {word : List Char} (hword : lexemeChars word = true)
    (hedge : ∀ c ∈ word.getLast?, ∀ d ∈ text.head?, joins c d = false) :
    Grouped (word :: lexemes) (word ++ text) := by
  intro i c d hc hd
  have hplain : ∀ c ∈ word, isSeparator c = false := fun c hc => (plain_of_lexemeChars hword c hc).1
  rcases Nat.lt_trichotomy (i + 1) word.length with hinside | hlast | hbeyond
  · -- Both are in the lexeme.
    rw [List.getElem?_append_left (by omega)] at hc hd
    have hjoins := joins_of_lexemeChars hword hc hd
    exact iff_of_true ⟨0, lexemeAt_left hplain _ _ (by omega), lexemeAt_left hplain _ _ hinside⟩
      hjoins
  · -- The first is its last character and the second comes after it.
    have hlastChar : c ∈ word.getLast? := by
      rw [List.getElem?_append_left (by omega)] at hc
      rw [List.getLast?_eq_getElem?, ← hlast]
      exact hc
    have hnextChar : d ∈ text.head? := by
      rw [List.getElem?_append_right (by omega), hlast, Nat.sub_self] at hd
      rw [List.head?_eq_getElem?]
      exact hd
    refine iff_of_false ?_ (Bool.eq_false_iff.mp (hedge c hlastChar d hnextChar))
    rintro ⟨k, hfirst, hsecond⟩
    rw [lexemeAt_left hplain _ _ (by omega)] at hfirst
    rw [hlast, ← Nat.add_zero word.length, lexemeAt_right hplain] at hsecond
    rcases Option.map_eq_some_iff.mp hsecond with ⟨other, _, hother⟩
    have hzero := Option.some.inj hfirst
    omega
  · -- Both come after it.
    obtain ⟨j, rfl⟩ : ∃ j, i = word.length + j := ⟨i - word.length, by omega⟩
    rw [List.getElem?_append_right (by omega)] at hc hd
    rw [Nat.add_sub_cancel_left] at hc
    rw [Nat.add_assoc, Nat.add_sub_cancel_left] at hd
    rw [← h hc hd, Together, Together, Nat.add_assoc, lexemeAt_right hplain, lexemeAt_right hplain]
    exact exists_map_succ_iff

/-- The lexemes of a text, by its beginning: nothing, a separator, or a lexeme whose last
    character does not join what follows. -/
inductive Lexed : List (List Char) → List Char → Prop where
  | nil : Lexed [] []
  | separator {lexemes : List (List Char)} {first : Char} {text : List Char} :
      isSeparator first = true → Lexed lexemes text → Lexed lexemes (first :: text)
  | word {lexemes : List (List Char)} {word text : List Char} : lexemeChars word = true →
      (∀ c ∈ word.getLast?, ∀ d ∈ text.head?, joins c d = false) → Lexed lexemes text →
      Lexed (word :: lexemes) (word ++ text)

namespace Lexed

variable {lexemes : List (List Char)} {text : List Char} (h : Lexed lexemes text)
include h

/-- Lexemes put together are the characters that are not separators. -/
theorem flatten_eq : lexemes.flatten = visible text := by
  induction h with
  | nil => rfl
  | separator hfirst _ ih =>
      rw [visible, List.filter_cons_of_neg (by simp [hfirst])]
      exact ih
  | word hword _ _ ih =>
      rw [List.flatten_cons, ih, visible_append,
        visible_eq_self fun c hc => (plain_of_lexemeChars hword c hc).1]

/-- Each character that is not a separator ends up in a lexeme that holds it. -/
theorem exists_lexemeAt {i : Nat} {c : Char} (hc : text[i]? = some c)
    (hplain : isSeparator c = false) :
    ∃ k chars, lexemeAt lexemes text i = some k ∧ lexemes[k]? = some chars ∧ c ∈ chars := by
  induction h generalizing i with
  | nil => cases hc
  | @separator lexemes first text hfirst _ ih =>
      cases i with
      | zero =>
          rw [← Option.some.inj hc, hfirst] at hplain
          cases hplain
      | succ i =>
          rw [lexemeAt_succ _ hfirst]
          exact ih hc
  | @word lexemes word text hword _ _ ih =>
      have hseparators : ∀ c ∈ word, isSeparator c = false :=
        fun c hc => (plain_of_lexemeChars hword c hc).1
      by_cases hi : i < word.length
      · rw [List.getElem?_append_left hi] at hc
        exact ⟨0, word, lexemeAt_left hseparators _ _ hi, rfl, List.mem_of_getElem? hc⟩
      · obtain ⟨j, rfl⟩ : ∃ j, i = word.length + j := ⟨i - word.length, by omega⟩
        rw [List.getElem?_append_right (by omega), Nat.add_sub_cancel_left] at hc
        rcases ih hc with ⟨k, chars, hk, hchars, hmem⟩
        refine ⟨k + 1, chars, ?_, hchars, hmem⟩
        rw [lexemeAt_right hseparators, hk]
        rfl

/-- They hold just those neighbours together that join. -/
theorem grouped : Grouped lexemes text := by
  induction h with
  | nil =>
      intro i c d hc _
      cases hc
  | separator hfirst _ ih => exact ih.separator hfirst
  | word hword hedge _ ih => exact ih.word hword hedge

end Lexed

/-- What the part before the comment begins with is what the line begins with. -/
theorem mem_head?_of_beforeComment {line : List Char} {c : Char}
    (h : c ∈ (beforeComment line).head?) : c ∈ line.head? ∧ c ≠ commentMark := by
  cases line with
  | nil => cases h
  | cons first rest =>
      by_cases hcomment : first = commentMark
      · rw [beforeComment, List.takeWhile_cons_of_neg (by simp [hcomment])] at h
        cases h
      · rw [beforeComment, List.takeWhile_cons_of_pos (by simp [hcomment]), List.head?_cons,
          Option.mem_some_iff] at h
        rw [← h]
        exact ⟨rfl, hcomment⟩

/-- What does not continue a lexeme does not join a character before it, comments apart. -/
theorem joins_eq_false {c d : Char} (h : isRegular d = false) (hd : d ≠ commentMark) :
    joins c d = false := by
  rw [Bool.eq_false_iff] at h ⊢
  intro hjoins
  simp only [joins, Bool.and_eq_true, Bool.not_eq_true', bne_iff_ne] at hjoins
  exact h (isRegular_iff.mpr ⟨hjoins.1.1.2, hjoins.1.2, hd, hjoins.2⟩)

/-- Scanning a line finds the lexemes of the part before its comment. -/
theorem lexed_scanLexemes (line : List Char) : Lexed (scanLexemes line) (beforeComment line) := by
  fun_induction scanLexemes line with
  | case1 => exact .nil
  | case2 first rest hsep ih =>
      have hcomment : first ≠ commentMark := by
        rintro rfl
        exact absurd hsep (by decide)
      rw [show first :: rest = [first] ++ rest from rfl,
        beforeComment_append (List.forall_mem_singleton.mpr hcomment)]
      exact .separator hsep ih
  | case3 first rest hsep hcomment =>
      rw [beforeComment, List.takeWhile_cons_of_neg (by simpa using hcomment)]
      exact .nil
  | case4 first rest hsep hcomment hbracket ih =>
      have hword : lexemeChars [first] = true := by
        simp only [lexemeChars, hbracket, if_true, List.isEmpty_nil]
      rw [show first :: rest = [first] ++ rest from rfl,
        beforeComment_append fun c hc => (plain_of_lexemeChars hword c hc).2]
      refine .word hword (fun c hc d _ => ?_) ih
      rw [List.getLast?_singleton, Option.mem_some_iff] at hc
      rw [← hc, joins, hbracket, Bool.not_true, Bool.and_false]
      rfl
  | case5 first rest hsep hcomment hbracket ih =>
      have hword := lexemeChars_takeWhile hsep hcomment hbracket rest
      have hsplit : first :: rest
          = (first :: rest.takeWhile isRegular) ++ rest.dropWhile isRegular := by
        rw [List.cons_append, List.takeWhile_append_dropWhile]
      rw [hsplit, beforeComment_append fun c hc => (plain_of_lexemeChars hword c hc).2]
      refine .word hword (fun c _ d hd => ?_) ih
      -- The scan of the lexeme stopped at a character that does not continue it.
      rcases mem_head?_of_beforeComment hd with ⟨hhead, hne⟩
      cases hrest : rest.dropWhile isRegular with
      | nil =>
          rw [hrest] at hhead
          cases hhead
      | cons next others =>
          rw [hrest, List.head?_cons, Option.mem_some_iff] at hhead
          rw [← hhead] at hne ⊢
          exact joins_eq_false (eq_false_of_dropWhile_cons hrest) hne

theorem map_toList_lexemes (line : String) :
    (lexemes line).map String.toList = scanLexemes line.toList := by
  rw [lexemes, List.map_map]
  exact (List.map_congr_left fun chars _ => String.toList_ofList).trans (List.map_id _)

/-- Lines are split by the grammar of lexemes. The lexemes of a line, put together, are the
    part before its comment less the separators. Each is not empty, and is a bracket alone
    or holds no separator, bracket or beginning of a comment, and no beginning of a name
    but as its first character. Each character that is not a separator ends up in one of
    them, and two neighbours end up in the same one just if neither is a separator or a
    bracket and the second does not begin a name. -/
theorem lexemes_follow_grammar (line : String) :
    let text := beforeComment line.toList
    let words := (lexemes line).map String.toList
    words.flatten = visible text ∧
    (∀ chars ∈ words, chars ≠ [] ∧ ((∃ c, isBracket c = true ∧ chars = [c]) ∨
      (∀ c ∈ chars, isSeparator c = false ∧ c ≠ commentMark ∧ isBracket c = false) ∧
        nameMark ∉ chars.tail)) ∧
    (∀ i c, text[i]? = some c → isSeparator c = false →
      ∃ k chars, lexemeAt words text i = some k ∧ words[k]? = some chars ∧ c ∈ chars) ∧
    ∀ i c d, text[i]? = some c → text[i + 1]? = some d →
      (Together words text i ↔ joins c d = true) := by
  intro text words
  have hwords : words = scanLexemes line.toList := map_toList_lexemes line
  have hlexed : Lexed words text := hwords ▸ lexed_scanLexemes line.toList
  refine ⟨hlexed.flatten_eq, fun chars hchars => ?_, fun _ _ => hlexed.exists_lexemeAt,
    fun _ _ _ => hlexed.grouped⟩
  rw [hwords] at hchars
  exact form_of_lexemeChars (lexemeChars_of_mem_scanLexemes hchars)

/-- A name ends the number before it, a bracket ends the name, and the space is lost. -/
theorem lexemes_follow_grammar_names :
    let line := "12/ab[c d%e]"
    let text := beforeComment line.toList
    let words := (lexemes line).map String.toList
    words.flatten = "12/ab[cd".toList ∧ Together words text 0 ∧ ¬ Together words text 1 ∧
      Together words text 2 ∧ ¬ Together words text 4 ∧ ¬ Together words text 7 := by
  intro line text words
  rcases lexemes_follow_grammar line with ⟨hflatten, _, _, htogether⟩
  have hvisible : visible text = "12/ab[cd".toList := by decide +kernel
  refine ⟨hflatten.trans hvisible, ?_, ?_, ?_, ?_, ?_⟩
  · exact (htogether 0 '1' '2' (by decide +kernel) (by decide +kernel)).mpr (by decide)
  · exact mt (htogether 1 '2' '/' (by decide +kernel) (by decide +kernel)).mp (by decide)
  · exact (htogether 2 '/' 'a' (by decide +kernel) (by decide +kernel)).mpr (by decide)
  · exact mt (htogether 4 'b' '[' (by decide +kernel) (by decide +kernel)).mp (by decide)
  · exact mt (htogether 7 ' ' 'd' (by decide +kernel) (by decide +kernel)).mp (by decide)

end PathScript
