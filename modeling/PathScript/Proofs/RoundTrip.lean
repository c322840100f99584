import PathScript.Proofs.Process
import PathScript.Proofs.Sequencing
import PathScript.Proofs.WrittenNumbers

/-!
# Running What Is Written

The written form of a value is a program that pushes it. Numbers, names and
truth values are written as one lexeme each, a procedure as its lexemes between
braces, and an array as its items between brackets. What has to be shown is
that the lexemes of the whole are those of its parts, and that running them
pushes one value after the other.

The first is a property of texts. A text is *whole* if what comes after it does
not change its lexemes, as long as that does not continue the last of them. A
lexeme is whole, texts with blanks between them are, and so is a text between
brackets. For the second, lexemes *push* values if running them before any
others amounts to running the others with the values on the stack. The
induction over values goes through lists of them, since this is how the items
of an array are run.

What is pushed is a copy: arrays and procedures have identities of their own,
and negative zero has lost its sign.

## Main definitions

* `Value.Writable`: Values whose written form is a program.
* `Whole`: A text that is split by itself.
* `Machine.laid`: A machine with values put on its stack.
* `Pushes`: Lexemes that push values.

## Theorems

* `whole_intercalate`, `whole_enclosed`: Texts that are made of whole ones.
* `Value.whole_text_array`, `Value.whole_text_procedure`: The lexemes of a
  written array and of a written procedure.
* `Value.whole_text`: Written values are whole.
* `pushes_append`, `pushes_array`, `pushes_procedure`: What lexemes push.
* `pushes_text`: The lexemes of a written value push the value.
* `run_written_value`: Running the written form of a value.
-/

namespace PathScript

/-- Values whose written form is a program: they are built by arrays from finite
    numbers, truth values, names that can follow a solidus, and procedures of balanced
    lexemes. -/
inductive Value.Writable : Value → Prop where
  | real {x : Binary64} : x.isFinite = true → Writable (.real x)
  | name {text : String} : IsLexeme ("/" ++ text) → Writable (.name text)
  | bool (b : Bool) : Writable (.bool b)
  | procedure (identity : Identity) {body : List String} : Balanced body →
      (∀ lexeme ∈ body, IsLexeme lexeme) → Writable (.procedure identity body)
  | array (identity : Identity) {items : List Value} :
      (∀ item ∈ items, Writable item) → Writable (.array identity items)

/-- A text that is split by itself, whatever follows that does not continue its last
    lexeme. -/
def Whole (text : List Char) : Prop :=
  ∀ rest, BreaksOff rest → scanLexemes (text ++ rest) = scanLexemes text ++ scanLexemes rest

theorem scanLexemes_nil : scanLexemes [] = [] := by rw [scanLexemes]

theorem whole_nil : Whole [] := by
  intro rest _
  rw [scanLexemes_nil]
  rfl

/-- A blank is passed over. -/
theorem scanLexemes_blank (rest : List Char) : scanLexemes (' ' :: rest) = scanLexemes rest := by
  rw [scanLexemes]
  rfl

theorem breaksOff_blank (rest : List Char) : BreaksOff (' ' :: rest) := breaksOff_cons (by decide)

/-- A text is whole if its lexemes are found before all that does not continue the
    last of them. -/
theorem whole_of_append {text : List Char} {found : List (List Char)}
    (h : ∀ rest, BreaksOff rest → scanLexemes (text ++ rest) = found ++ scanLexemes rest) :
    Whole text ∧ scanLexemes text = found := by
  have hscan := h [] breaksOff_nil
  rw [List.append_nil, scanLexemes_nil, List.append_nil] at hscan
  refine ⟨fun rest hrest => ?_, hscan⟩
  rw [h rest hrest, hscan]

theorem whole_of_isLexeme {lexeme : String} (h : IsLexeme lexeme) :
    Whole lexeme.toList ∧ scanLexemes lexeme.toList = [lexeme.toList] :=
  whole_of_append fun _ hrest => scanLexemes_append (isLexeme_iff.mp h) hrest

/-- Lexemes are split off one by one. -/
theorem map_flatMap_scanLexemes {body : List String} (h : ∀ lexeme ∈ body, IsLexeme lexeme) :
    ((body.map String.toList).flatMap scanLexemes).map String.ofList = body := by
  induction body with
  | nil => rfl
  | cons lexeme body ih =>
      rw [List.map_cons, List.flatMap_cons, List.map_append,
        ih fun other hmem => h other (List.mem_cons_of_mem _ hmem),
        (whole_of_isLexeme (h lexeme List.mem_cons_self)).2, List.map_singleton,
        String.ofList_toList]
      rfl

/-- Texts with blanks between them. -/
theorem whole_intercalate {texts : List (List Char)} (h : ∀ text ∈ texts, Whole text) :
    Whole ([' '].intercalate texts) ∧
      scanLexemes ([' '].intercalate texts) = texts.flatMap scanLexemes := by
  induction texts with
  | nil => exact ⟨whole_nil, scanLexemes_nil⟩
  | cons text texts ih =>
      have htext := h text List.mem_cons_self
      cases texts with
      | nil =>
          rw [List.intercalate_singleton, List.flatMap_singleton]
          exact ⟨htext, rfl⟩
      | cons other texts =>
          rcases ih fun text hmem => h text (List.mem_cons_of_mem _ hmem) with ⟨hwhole, hscan⟩
          rw [List.intercalate_cons_cons, List.flatMap_cons, ← hscan]
          refine whole_of_append fun rest hrest => ?_
          -- What follows the first text begins with a blank.
          rw [List.append_assoc, List.append_assoc, List.singleton_append,
            htext _ (breaksOff_blank _), scanLexemes_blank, hwhole rest hrest, List.append_assoc]

/-- A text with a blank before and after it. -/
theorem whole_padded {text : List Char} (h : Whole text) :
    Whole (' ' :: (text ++ [' '])) ∧ scanLexemes (' ' :: (text ++ [' '])) = scanLexemes text := by
  refine whole_of_append fun rest _ => ?_
  rw [List.cons_append, scanLexemes_blank, List.append_assoc, List.singleton_append,
    h _ (breaksOff_blank _), scanLexemes_blank]

/-- A text between brackets. -/
theorem whole_enclosed {left right : Char} (hleft : isBracket left = true)
    (hright : isBracket right = true) {text : List Char} (h : Whole text) :
    Whole (left :: (text ++ [right])) ∧
      scanLexemes (left :: (text ++ [right])) = [left] :: (scanLexemes text ++ [[right]]) := by
  -- A bracket ends the lexeme before it.
  have hbreaks : isRegular right = false := by
    simp only [isRegular, hright, Bool.not_true, Bool.and_false, Bool.false_and]
  refine whole_of_append fun rest _ => ?_
  rw [List.cons_append, scanLexemes_bracket hleft, List.append_assoc, List.singleton_append,
    h _ (breaksOff_cons hbreaks), scanLexemes_bracket hright, List.cons_append,
    List.append_assoc, List.singleton_append]

namespace Value

theorem texts_eq_map (items : List Value) : texts items = items.map text := by
  induction items with
  | nil => rfl
  | cons item items ih => rw [texts, ih, List.map_cons]

/-- The written form of an array, as characters. -/
theorem toList_text_array (identity : Identity) (items : List Value) :
    (array identity items).text.toList
      = '[' :: ([' '].intercalate (items.map fun item => item.text.toList) ++ [']']) := by
  rw [text, texts_eq_map, String.toList_append, String.toList_append, String.toList_intercalate,
    List.map_map]
  rfl

/-- The written form of a procedure that is not empty, as characters. -/
theorem toList_text_procedure (identity : Identity) {body : List String} (h : body ≠ []) :
    (procedure identity body).text.toList
      = '\x7b' :: (' ' :: ([' '].intercalate (body.map String.toList) ++ [' ']) ++ ['\x7d']) := by
  rw [text, bodyText, if_neg (by rw [List.isEmpty_iff]; exact h), String.toList_append,
    String.toList_append, String.toList_intercalate, List.cons_append, List.append_assoc,
    List.append_assoc]
  rfl

/-- A written array is whole if its items are, and its lexemes are theirs between
    brackets. -/
theorem whole_text_array (identity : Identity) {items : List Value}
    (h : ∀ item ∈ items, Whole item.text.toList) :
    Whole (array identity items).text.toList ∧
      lexemes (array identity items).text
        = "[" :: (items.flatMap (fun item => lexemes item.text) ++ ["]"]) := by
  have hitems : ∀ text ∈ items.map fun item => item.text.toList, Whole text := by
    intro text hmem
    rcases List.mem_map.mp hmem with ⟨item, hitem, rfl⟩
    exact h item hitem
  rcases whole_intercalate hitems with ⟨hinside, hscan⟩
  have hbrackets : isBracket '[' = true ∧ isBracket ']' = true := by decide
  rcases whole_enclosed hbrackets.1 hbrackets.2 hinside with ⟨hwhole, htotal⟩
  rw [lexemes, toList_text_array]
  refine ⟨hwhole, ?_⟩
  rw [htotal, hscan, List.flatMap_map, List.map_cons, List.map_append, List.map_flatMap]
  rfl

/-- A written procedure is whole, and its lexemes are those of its body between
    braces. -/
theorem whole_text_procedure (identity : Identity) {body : List String}
    (h : ∀ lexeme ∈ body, IsLexeme lexeme) :
    Whole (procedure identity body).text.toList ∧
      lexemes (procedure identity body).text = openBrace :: (body ++ [closeBrace]) := by
  have hbraces : isBracket '\x7b' = true ∧ isBracket '\x7d' = true := by decide
  by_cases hnil : body = []
  · rw [hnil, lexemes]
    rcases whole_enclosed hbraces.1 hbraces.2 whole_nil with ⟨hwhole, htotal⟩
    rw [scanLexemes_nil] at htotal
    have htext : (procedure identity []).text.toList = '\x7b' :: ([] ++ ['\x7d']) := by
      rw [text]
      rfl
    rw [htext, htotal]
    exact ⟨hwhole, rfl⟩
  · have hbody : ∀ text ∈ body.map String.toList, Whole text := by
      intro text hmem
      rcases List.mem_map.mp hmem with ⟨lexeme, hlexeme, rfl⟩
      exact (whole_of_isLexeme (h lexeme hlexeme)).1
    rcases whole_intercalate hbody with ⟨hinside, hscan⟩
    rcases whole_padded hinside with ⟨hpadded, hscan'⟩
    rcases whole_enclosed hbraces.1 hbraces.2 hpadded with ⟨hwhole, htotal⟩
    rw [lexemes, toList_text_procedure identity hnil]
    refine ⟨hwhole, ?_⟩
    rw [htotal, hscan', hscan, List.map_cons, List.map_append, map_flatMap_scanLexemes h]
    rfl

end Value

/-- A lexeme is written as it is. -/
theorem lexemes_of_isLexeme {lexeme : String} (h : IsLexeme lexeme) :
    lexemes lexeme = [lexeme] := by
  rw [lexemes, (whole_of_isLexeme h).2, List.map_singleton, String.ofList_toList]

namespace Value

variable {v : Value}

/-- A finite number is written as a lexeme that reads back. -/
theorem isLexeme_compact {x : Binary64} (h : x.isFinite = true) : IsLexeme x.compact := by
  cases x with
  | finite negative position =>
      rcases Literal.value?_compact negative position with ⟨y, hy, _⟩
      exact (Literal.isLexeme_of_value hy).1
  | infinite negative => exact absurd h Bool.false_ne_true
  | nan => exact absurd h Bool.false_ne_true

theorem isLexeme_text_bool (b : Bool) : IsLexeme (bool b).text := by
  rw [text]
  cases b <;> exact isLexeme_iff.mpr (by decide)

/-- Written values are whole. -/
theorem whole_text (h : v.Writable) : Whole v.text.toList := by
  induction h with
  | real hfinite =>
      rw [text]
      exact (whole_of_isLexeme (isLexeme_compact hfinite)).1
  | name hlexeme =>
      rw [text]
      exact (whole_of_isLexeme hlexeme).1
  | bool b => exact (whole_of_isLexeme (isLexeme_text_bool b)).1
  | procedure identity _ hbody => exact (whole_text_procedure identity hbody).1
  | array identity _ ih => exact (whole_text_array identity ih).1

theorem equalAll_append {copies others values rest : List Value}
    (h : equalAll copies values = true) (hrest : equalAll others rest = true) :
    equalAll (copies ++ others) (values ++ rest) = true := by
  induction copies generalizing values with
  | nil =>
      cases values with
      | nil => exact hrest
      | cons v values => exact absurd h (by simp only [equalAll, Bool.false_eq_true,
          not_false_eq_true])
  | cons copy copies ih =>
      cases values with
      | nil => exact absurd h (by simp only [equalAll, Bool.false_eq_true, not_false_eq_true])
      | cons v values =>
          simp only [equalAll, Bool.and_eq_true] at h
          simp only [List.cons_append, equalAll, Bool.and_eq_true]
          exact ⟨h.1, ih h.2⟩

end Value

namespace Machine

/-- A machine with no limit on its operands, on which the names of the truth values
    mean what they do from the start. -/
structure Open (m : Machine) : Prop where
  unlimited : m.settings.maxOperands = 0
  isTrue : m.definitions.find? "true" = none
  isFalse : m.definitions.find? "false" = none

/-- A machine with values put on its stack, one after the other, and identities given
    out. -/
def laid (m : Machine) (values : List Value) (next : Identity) : Machine :=
  { m with operands := (values.map Cell.of).reverse ++ m.operands, nextIdentity := next }

variable {m : Machine}

theorem laid_laid (first second : List Value) (next next' : Identity) :
    (m.laid first next).laid second next' = m.laid (first ++ second) next' := by
  simp only [laid, List.map_append, List.reverse_append, List.append_assoc]

theorem Open.laid (h : m.Open) (values : List Value) (next : Identity) :
    (m.laid values next).Open := ⟨h.unlimited, h.isTrue, h.isFalse⟩

theorem Open.hasRoom (h : m.Open) : m.hasRoom m.settings = true := by
  simp only [State.hasRoom, underLimit, h.unlimited, beq_self_eq_true, Bool.true_or]

/-- Pushing a value always succeeds. -/
theorem Open.ofChange_push (h : m.Open) (command : String) (value : Value) :
    Run.ofChange m command (m.push? m.settings value)
      = .done (m.laid [value] m.nextIdentity) := by
  unfold State.push?
  rw [if_pos h.hasRoom]
  rfl

theorem Open.lookup (h : m.Open) (b : Bool) :
    m.lookup? (Value.bool b).text
      = some (.of (.literal (builtinIdentity b) (.bool b))) := by
  rw [Value.text]
  cases b with
  | true =>
      rw [if_pos rfl, State.lookup?, h.isTrue]
      rfl
  | false =>
      rw [if_neg Bool.false_ne_true, State.lookup?, h.isFalse]
      rfl

end Machine

/-- Lexemes that push copies of values, one after the other, and do nothing else. -/
def Pushes (lexemes : List String) (values : List Value) : Prop :=
  ∀ (call : Caller) (m : Machine), m.Open → ∀ rest, ∃ copies next,
    Value.equalAll copies values = true ∧
      m.runLexemes call (lexemes ++ rest) = (m.laid copies next).runLexemes call rest

theorem pushes_nil : Pushes [] [] :=
  fun _ m _ _ => ⟨[], m.nextIdentity, by rw [Value.equalAll], rfl⟩

theorem pushes_append {first second : List String} {values others : List Value}
    (hfirst : Pushes first values) (hsecond : Pushes second others) :
    Pushes (first ++ second) (values ++ others) := by
  intro call m hm rest
  rcases hfirst call m hm (second ++ rest) with ⟨copies, next, hequal, hrun⟩
  rcases hsecond call _ (hm.laid copies next) rest with ⟨copies', next', hequal', hrun'⟩
  refine ⟨copies ++ copies', next', Value.equalAll_append hequal hequal', ?_⟩
  rw [List.append_assoc, hrun, hrun', Machine.laid_laid]

/-- One lexeme that pushes a copy of a value. -/
theorem pushes_singleton {lexeme : String} {v copy : Value}
    (hbegins : Machine.beginsProcedure lexeme = false) (hequal : copy.equal v = true)
    (hstep : ∀ (call : Caller) (m : Machine), m.Open →
      m.step call lexeme = .done (m.laid [copy] m.nextIdentity)) : Pushes [lexeme] [v] := by
  intro call m hm rest
  refine ⟨[copy], m.nextIdentity, ?_, Machine.runLexemes_of_done hbegins (hstep call m hm)⟩
  rw [Value.equalAll, Value.equalAll, hequal]
  rfl

/-- A written number. -/
theorem pushes_real {x : Binary64} (h : x.isFinite = true) : Pushes [x.compact] [.real x] := by
  cases x with
  | infinite negative => exact absurd h Bool.false_ne_true
  | nan => exact absurd h Bool.false_ne_true
  | finite negative position =>
      rcases Literal.value?_compact negative position with ⟨y, hy, hfinite, hequal⟩
      rcases Literal.isLexeme_of_value hy with ⟨_, first, rest, htext, hstarts, hregular, hletter⟩
      generalize (Binary64.finite negative position).compact = lexeme at *
      -- What begins a number begins nothing else.
      have hbrace : first ≠ '\x7b' := by
        rintro rfl
        exact absurd hregular (by decide)
      have hmark : first ≠ nameMark := by
        rintro rfl
        exact absurd hregular (by decide)
      have hbegins : Machine.beginsProcedure lexeme = false := by
        rw [Machine.beginsProcedure, htext, List.head?_cons]
        exact beq_eq_false_iff_ne.mpr fun heq => hbrace (Option.some.inj heq)
      have hname : Machine.isName lexeme = false := by
        rw [Machine.isName, htext, List.head?_cons, Option.any_some, hletter]
      have hread : Machine.readNumber lexeme = .ok y := by
        unfold Machine.readNumber
        rw [hy]
        exact if_pos hfinite
      have hvalue : (Value.real y).equal (.real (.finite negative position)) = true := by
        rw [Value.equal]
        exact hequal
      refine pushes_singleton hbegins hvalue fun call m hm => ?_
      rw [Machine.step_eq_ite, hname]
      change m.stepPlain lexeme = _
      unfold Machine.stepPlain
      simp only [htext, if_neg hmark, hstarts, if_true, hread]
      exact hm.ofChange_push lexeme (.real y)

/-- A written name. -/
theorem pushes_name (text : String) : Pushes ["/" ++ text] [.name text] := by
  have htext : ("/" ++ text).toList = nameMark :: text.toList := String.toList_append
  have hmark : isLetter nameMark = false := by decide +kernel
  have hbegins : Machine.beginsProcedure ("/" ++ text) = false := by
    rw [Machine.beginsProcedure, htext]
    rfl
  have hname : Machine.isName ("/" ++ text) = false := by
    rw [Machine.isName, htext, List.head?_cons, Option.any_some, hmark]
  have hvalue : (Value.name text).equal (.name text) = true := by
    rw [Value.equal]
    exact beq_self_eq_true text
  refine pushes_singleton hbegins hvalue fun call m hm => ?_
  rw [Machine.step_eq_ite, hname]
  change m.stepPlain ("/" ++ text) = _
  unfold Machine.stepPlain
  simp only [htext, if_true, String.ofList_toList]
  exact hm.ofChange_push ("/" ++ text) (.name text)

/-- A written truth value. -/
theorem pushes_bool (b : Bool) : Pushes [(Value.bool b).text] [.bool b] := by
  have hbegins : Machine.beginsProcedure (Value.bool b).text = false := by
    rw [Value.text]
    cases b <;> decide
  have hname : Machine.isName (Value.bool b).text = true := by
    rw [Value.text]
    cases b <;> decide +kernel
  have hvalue : (Value.bool b).equal (.bool b) = true := by
    rw [Value.equal]
    exact beq_self_eq_true b
  refine pushes_singleton hbegins hvalue fun call m hm => ?_
  rw [Machine.step_eq_ite, if_pos hname, Machine.executeName, hm.lookup]
  exact hm.ofChange_push _ (.bool b)

/-- A written procedure. -/
theorem pushes_procedure (identity : Identity) {body : List String} (h : Balanced body) :
    Pushes (openBrace :: (body ++ [closeBrace])) [.procedure identity body] := by
  intro call m hm rest
  have hcapture : capture 0 (body ++ [closeBrace] ++ rest) = .ok (body, rest) := by
    rw [List.append_assoc]
    exact capture_eq_ok_iff.mpr ⟨rfl, h⟩
  have hpush : m.pushCaptured openBrace body
      = .done (m.laid [.procedure m.nextIdentity body] (m.nextIdentity + 1)) := by
    unfold Machine.pushCaptured State.pushProcedure?
    rw [if_pos hm.hasRoom]
    rfl
  refine ⟨[.procedure m.nextIdentity body], m.nextIdentity + 1, ?_, ?_⟩
  · rw [Value.equalAll, Value.equalAll, Value.equal, beq_self_eq_true]
    rfl
  · rw [List.cons_append, Machine.runLexemes_of_capture (by decide) hcapture, hpush]
    rfl

/-- A closing bracket gathers what has been put on the stack since the open one. -/
theorem Machine.closeArray_laid {m : Machine} (h : m.Open) (values : List Value)
    (next : Identity) :
    (m.openArray.laid values next).closeArray = .done (m.laid [.array next values] (next + 1)) := by
  have hmarks : (m.openArray.laid values next).marks = m.operands.length :: m.marks := rfl
  have hlength : (m.openArray.laid values next).operands.length
      = values.length + m.operands.length := by
    simp only [laid, openArray, List.length_append, List.length_reverse, List.length_map]
  have hcount : values.length = ((values.map Cell.of).reverse).length := by
    rw [List.length_reverse, List.length_map]
  -- The bracket remembers the height below the values, so those are what is gathered
  -- and what is below is what is left.
  have hgathered : (m.openArray.laid values next).gathered m.operands.length = values := by
    rw [gathered, hlength, Nat.add_sub_cancel, hcount]
    simp only [laid, List.take_left, List.reverse_reverse, List.map_map]
    exact List.map_id values
  have hcleared : (m.openArray.laid values next).cleared m.operands.length m.marks
      = m.laid [] next := by
    rw [cleared, hlength, Nat.add_sub_cancel, hcount]
    simp only [laid, openArray, List.drop_left, List.map_nil, List.reverse_nil, List.nil_append]
  have hroom : (m.laid [] next).hasRoom m.settings = true := (h.laid [] next).hasRoom
  rw [closeArray_of_le hmarks (by rw [hlength]; exact Nat.le_add_left _ _), hgathered, hcleared]
  exact if_pos hroom

/-- A written array. -/
theorem pushes_array (identity : Identity) {lexemes : List String} {items : List Value}
    (h : Pushes lexemes items) : Pushes ("[" :: (lexemes ++ ["]"])) [.array identity items] := by
  intro call m hm rest
  have hopen : m.openArray.Open := ⟨hm.unlimited, hm.isTrue, hm.isFalse⟩
  rcases h call m.openArray hopen (["]"] ++ rest) with ⟨copies, next, hequal, hrun⟩
  refine ⟨[.array next copies], next + 1, ?_, ?_⟩
  · rw [Value.equalAll, Value.equalAll, Value.equal, hequal]
    rfl
  · have hclose := Machine.closeArray_laid hm copies next
    rw [← Machine.step_closeBracket call] at hclose
    rw [List.cons_append, List.append_assoc,
      Machine.runLexemes_of_done (by decide) (Machine.step_openBracket call m), hrun]
    exact Machine.runLexemes_of_done (by decide) hclose

/-- The items of an array, one after the other. -/
theorem pushes_items {items : List Value}
    (h : ∀ item ∈ items, Pushes (lexemes item.text) [item]) :
    Pushes (items.flatMap fun item => lexemes item.text) items := by
  induction items with
  | nil => exact pushes_nil
  | cons item items ih =>
      rw [List.flatMap_cons]
      exact pushes_append (h item List.mem_cons_self)
        (ih fun other hmem => h other (List.mem_cons_of_mem _ hmem))

/-- The lexemes of a written value push the value. -/
theorem pushes_text {v : Value} (h : v.Writable) : Pushes (lexemes v.text) [v] := by
  -- The induction is on how the value is built. That its text is whole is known
  -- already, so here the lexemes of an array are those of its items.
  induction h with
  | real hfinite =>
      rw [Value.text, lexemes_of_isLexeme (Value.isLexeme_compact hfinite)]
      exact pushes_real hfinite
  | @name text hlexeme =>
      rw [Value.text, lexemes_of_isLexeme hlexeme]
      exact pushes_name text
  | bool b =>
      rw [lexemes_of_isLexeme (Value.isLexeme_text_bool b)]
      exact pushes_bool b
  | procedure identity hbalanced hbody =>
      rw [(Value.whole_text_procedure identity hbody).2]
      exact pushes_procedure identity hbalanced
  | array identity hitems ih =>
      rw [(Value.whole_text_array identity fun item hmem => Value.whole_text (hitems item hmem)).2]
      exact pushes_array identity (pushes_items ih)

/-- Running the lexemes of a written value, on any machine without a limit on its
    operands where the names of the truth values are not defined anew, completes and
    pushes one value that holds the same. Nothing else changes but the identities that
    are given out: the operands below, the open brackets, the definitions, the graphics
    states and the drawing are as they were. -/
theorem run_written_value {v : Value} (h : v.Writable) (m : Machine)
    (hunlimited : m.settings.maxOperands = 0) (htrue : m.definitions.find? "true" = none)
    (hfalse : m.definitions.find? "false" = none) :
    ∃ copy next, copy.equal v = true ∧ m.runList (lexemes v.text)
      = .done { m with operands := .of copy :: m.operands, nextIdentity := next } := by
  rcases pushes_text h (callerAt m.allowance) m ⟨hunlimited, htrue, hfalse⟩ [] with
    ⟨copies, next, hequal, hrun⟩
  -- A list that is equal to one with a single member has a single member.
  rcases copies with _ | ⟨copy, others⟩
  · exact absurd hequal (by simp only [Value.equalAll, Bool.false_eq_true, not_false_eq_true])
  · rcases others with _ | ⟨other, others⟩
    · simp only [Value.equalAll, Bool.and_true] at hequal
      refine ⟨copy, next, hequal, ?_⟩
      rw [List.append_nil] at hrun
      rw [Machine.runList, hrun, Machine.runLexemes]
      rfl
    · exact absurd hequal (by simp only [Value.equalAll, Bool.and_false, Bool.false_eq_true,
        not_false_eq_true])

/-- An array of negative zero, a fraction, a name, a truth value, a procedure with
    another one inside and an empty array, run inside a procedure and between
    brackets. -/
theorem run_written_value_nested :
    let fraction := (Decimal.finite true 25 (-1)).toBinary64
    let body := ["dup", "\x7b", "pop", "\x7d"]
    let v : Value := .array 7 [.real (.zero true), .real fraction, .name "a", .bool true,
      .procedure 3 body, .array 8 []]
    let m : Machine :=
      { Machine.start { Settings.standard with maxOperands := 0 } (.text "") with
        operands := [.of (.name "below")]
        marks := [1]
        depth := 2 }
    v.text = "[0 -2.5 /a true \x7b dup \x7b pop \x7d \x7d []]" ∧ v.Writable ∧
    m.settings.maxOperands = 0 ∧ m.definitions.find? "true" = none ∧
    m.definitions.find? "false" = none ∧
    ∃ copy next, copy.equal v = true ∧ m.runList (lexemes v.text)
      = .done { m with operands := [.of copy, .of (.name "below")], nextIdentity := next } := by
  intro fraction body v m
  have hfraction : fraction.isFinite = true := by decide +kernel
  have hname : IsLexeme ("/" ++ "a") := isLexeme_iff.mpr (by decide)
  have hbalanced : Balanced body := by
    refine closes_cons_other (by decide) (by decide) |>.mpr (closes_cons_open.mpr ?_)
    refine closes_cons_other (by decide) (by decide) |>.mpr (closes_cons_close.mpr ⟨by decide, ?_⟩)
    exact closes_nil.mpr rfl
  have hbody : ∀ lexeme ∈ body, IsLexeme lexeme := by
    have hchars : ∀ lexeme ∈ body, lexemeChars lexeme.toList = true := by decide
    exact fun lexeme hmem => isLexeme_iff.mpr (hchars lexeme hmem)
  have hv : v.Writable := by
    refine .array 7 (List.forall_mem_cons.mpr ⟨.real rfl, List.forall_mem_cons.mpr
      ⟨.real hfraction, List.forall_mem_cons.mpr ⟨.name hname, List.forall_mem_cons.mpr
        ⟨.bool true, List.forall_mem_cons.mpr ⟨.procedure 3 hbalanced hbody,
          List.forall_mem_cons.mpr ⟨.array 8 (List.forall_mem_nil _), List.forall_mem_nil _⟩⟩⟩⟩⟩⟩)
  exact ⟨by decide +kernel, hv, rfl, rfl, rfl, run_written_value hv m rfl rfl rfl⟩

end PathScript
