import PathScript.Proofs.Lexemes

/-!
# Balanced Braces

A list of lexemes is balanced if no part of it, from its beginning on, closes
more procedures than it opens, and the whole of it closes as many as it opens.
Capturing a procedure and being balanced are two views of one thing: what is
captured is the balanced list before a brace that closes nothing inside it,
and a balanced list followed by such a brace is captured.

Inside a procedure that is being captured some procedures are already open.
`Closes inner` is balance from there on: `inner` more procedures are closed
than are opened. The induction over capturing is on that number together with
the lexemes.

`Code` is what a procedure can have for a body: balanced lexemes that lines
can deliver. As it runs, the lexemes that are left are code again, since a
lexeme that begins a procedure is taken together with everything up to the
brace that closes it.

## Main definitions

* `Closes`: Lexemes that close a number of procedures more than they open.
* `Balanced`: Lexemes that close as many procedures as they open.
* `Code`: Balanced lexemes that lines can deliver.

## Theorems

* `balanced_iff`: The two conditions of balance.
* `capture_eq_ok_iff`: What is captured from a list, and when.
* `capture_of_closes`: Where enough procedures are closed, one is captured.
* `balanced_iff_capture`: Balance can be found out by capturing.
* `Code.of_cons`, `Code.of_capture`: What is left of code is code, and so is a
  procedure captured from it.
* `Code.exists_capture`: A procedure that code begins can be captured.
* `Tokenizer.code_of_capture`: A procedure captured from a source is code.
-/

namespace PathScript

/-- Lexemes that close `inner` procedures more than they open, and at no point
    more than are open. -/
structure Closes (inner : Nat) (lexemes : List String) : Prop where
  within : ∀ initial, initial <+: lexemes →
    initial.count closeBrace ≤ inner + initial.count openBrace
  settled : lexemes.count closeBrace = inner + lexemes.count openBrace

/-- Lexemes that close as many procedures as they open, and at no point more than
    they have opened. -/
def Balanced (lexemes : List String) : Prop := Closes 0 lexemes

/-- The two conditions of balance, spelled out. -/
theorem balanced_iff {lexemes : List String} :
    Balanced lexemes ↔
      (∀ initial, initial <+: lexemes → initial.count closeBrace ≤ initial.count openBrace) ∧
        lexemes.count openBrace = lexemes.count closeBrace := by
  constructor
  · intro h
    refine ⟨fun initial hinitial => ?_, ?_⟩
    · have hwithin := h.within initial hinitial
      omega
    · have hsettled := h.settled
      omega
  · rintro ⟨hwithin, hsettled⟩
    refine ⟨fun initial hinitial => ?_, by omega⟩
    have hle := hwithin initial hinitial
    omega

theorem closes_nil {inner : Nat} : Closes inner [] ↔ inner = 0 := by
  constructor
  · intro h
    have hsettled := h.settled
    simp only [List.count_nil] at hsettled
    omega
  · rintro rfl
    refine ⟨fun initial hinitial => ?_, rfl⟩
    rw [List.prefix_nil.mp hinitial]
    exact Nat.le_refl _

/-- Reading one lexeme: the procedures it opens and closes are added to those
    open, and there have to be as many as it closes. -/
theorem closes_cons {inner : Nat} {lexeme : String} {rest : List String} :
    Closes inner (lexeme :: rest) ↔
      [lexeme].count closeBrace ≤ inner + [lexeme].count openBrace ∧
        Closes (inner + [lexeme].count openBrace - [lexeme].count closeBrace) rest := by
  have hcount : ∀ brace (others : List String),
      (lexeme :: others).count brace = [lexeme].count brace + others.count brace := by
    intro brace others
    exact (@List.count_append _ _ brace [lexeme] others)
  constructor
  · intro h
    have hfirst := h.within [lexeme] (List.cons_prefix_cons.mpr ⟨rfl, List.nil_prefix⟩)
    refine ⟨hfirst, fun initial hinitial => ?_, ?_⟩
    · have hwithin := h.within (lexeme :: initial) (List.cons_prefix_cons.mpr ⟨rfl, hinitial⟩)
      rw [hcount _ initial, hcount _ initial] at hwithin
      omega
    · have hsettled := h.settled
      rw [hcount _ rest, hcount _ rest] at hsettled
      omega
  · rintro ⟨hfirst, hrest⟩
    refine ⟨fun initial hinitial => ?_, ?_⟩
    · rcases List.prefix_cons_iff.mp hinitial with rfl | ⟨others, rfl, hothers⟩
      · exact Nat.zero_le _
      · have hwithin := hrest.within others hothers
        rw [hcount _ others, hcount _ others]
        omega
    · have hsettled := hrest.settled
      rw [hcount _ rest, hcount _ rest]
      omega

theorem closes_cons_open {inner : Nat} {rest : List String} :
    Closes inner (openBrace :: rest) ↔ Closes (inner + 1) rest := by
  have hopen : [openBrace].count openBrace = 1 := by decide
  have hclose : [openBrace].count closeBrace = 0 := by decide
  rw [closes_cons, hopen, hclose, Nat.sub_zero]
  exact and_iff_right (Nat.zero_le _)

theorem closes_cons_close {inner : Nat} {rest : List String} :
    Closes inner (closeBrace :: rest) ↔ 0 < inner ∧ Closes (inner - 1) rest := by
  have hopen : [closeBrace].count openBrace = 0 := by decide
  have hclose : [closeBrace].count closeBrace = 1 := by decide
  rw [closes_cons, hopen, hclose, Nat.add_zero]
  exact Iff.rfl

theorem closes_cons_other {inner : Nat} {lexeme : String} {rest : List String}
    (hopen : lexeme ≠ openBrace) (hclose : lexeme ≠ closeBrace) :
    Closes inner (lexeme :: rest) ↔ Closes inner rest := by
  have hopen' : [lexeme].count openBrace = 0 :=
    List.count_eq_zero.mpr fun h => hopen (List.mem_singleton.mp h).symm
  have hclose' : [lexeme].count closeBrace = 0 :=
    List.count_eq_zero.mpr fun h => hclose (List.mem_singleton.mp h).symm
  rw [closes_cons, hopen', hclose', Nat.sub_zero, Nat.add_zero]
  exact and_iff_right (Nat.zero_le _)

/-- What follows lexemes that close a number of procedures closes the others. -/
theorem closes_of_append {inner outer : Nat} {first second : List String}
    (hfirst : Closes inner first) (h : Closes (inner + outer) (first ++ second)) :
    Closes outer second := by
  have hsettled := hfirst.settled
  refine ⟨fun initial hinitial => ?_, ?_⟩
  · have hwithin := h.within (first ++ initial) ((List.prefix_append_right_inj first).mpr hinitial)
    rw [List.count_append, List.count_append] at hwithin
    omega
  · have htotal := h.settled
    rw [List.count_append, List.count_append] at htotal
    omega

/-- Keeping a lexeme puts it in front of what is captured after it. -/
theorem map_cons_eq_ok_iff {found : Except Nat (List String × List String)} {lexeme : String}
    {body left : List String} :
    found.map (fun pair => (lexeme :: pair.1, pair.2)) = .ok (body, left) ↔
      ∃ inside, found = .ok (inside, left) ∧ body = lexeme :: inside := by
  cases found with
  | error depth => simp only [Except.map, reduceCtorEq, false_and, exists_false]
  | ok pair =>
      rcases pair with ⟨inside, rest⟩
      simp only [Except.map, Except.ok.injEq, Prod.mk.injEq]
      constructor
      · rintro ⟨rfl, rfl⟩
        exact ⟨inside, ⟨rfl, rfl⟩, rfl⟩
      · rintro ⟨inside', ⟨rfl, rfl⟩, rfl⟩
        exact ⟨rfl, rfl⟩

/-- What is captured: the lexemes up to a brace that closes one procedure more than
    they do. -/
theorem capture_eq_ok_iff {inner : Nat} {lexemes body left : List String} :
    capture inner lexemes = .ok (body, left) ↔
      lexemes = body ++ closeBrace :: left ∧ Closes inner body := by
  induction lexemes generalizing inner body with
  | nil =>
      simp only [capture, reduceCtorEq, false_iff, not_and]
      intro h
      exact absurd h.symm (List.append_ne_nil_of_right_ne_nil _ (List.cons_ne_nil _ _))
  | cons lexeme rest ih =>
      -- A lexeme that is kept is the first of the body.
      have hkept : ∀ next, (∀ inside, Closes inner (lexeme :: inside) ↔ Closes next inside) →
          (inner = 0 → lexeme ≠ closeBrace) →
          ((capture next rest).map (fun pair => (lexeme :: pair.1, pair.2)) = .ok (body, left) ↔
            lexeme :: rest = body ++ closeBrace :: left ∧ Closes inner body) := by
        intro next hcloses hbrace
        rw [map_cons_eq_ok_iff]
        constructor
        · rintro ⟨inside, hcapture, rfl⟩
          rcases ih.mp hcapture with ⟨rfl, hinside⟩
          exact ⟨rfl, (hcloses inside).mpr hinside⟩
        · rintro ⟨hlexemes, hbody⟩
          cases body with
          | nil =>
              exact absurd (List.cons.inj hlexemes).1 (hbrace (closes_nil.mp hbody))
          | cons first inside =>
              rcases List.cons.inj hlexemes with ⟨rfl, hrest⟩
              exact ⟨inside, ih.mpr ⟨hrest, (hcloses inside).mp hbody⟩, rfl⟩
      unfold capture
      by_cases hopen : lexeme = openBrace
      · subst hopen
        simp only [if_true]
        exact hkept (inner + 1) (fun _ => closes_cons_open) (fun _ => by decide)
      · by_cases hclose : lexeme = closeBrace
        · subst hclose
          simp only [if_neg hopen, if_true]
          cases inner with
          | zero =>
              simp only [Except.ok.injEq, Prod.mk.injEq]
              constructor
              · rintro ⟨rfl, rfl⟩
                exact ⟨rfl, closes_nil.mpr rfl⟩
              · rintro ⟨hlexemes, hbody⟩
                cases body with
                | nil => exact ⟨rfl, (List.cons.inj hlexemes).2⟩
                | cons first inside =>
                    -- A brace that closes nothing cannot be part of the body.
                    rw [← (List.cons.inj hlexemes).1] at hbody
                    exact absurd (closes_cons_close.mp hbody).1 (Nat.lt_irrefl 0)
          | succ outer =>
              refine hkept outer (fun inside => ?_) (fun h => absurd h (Nat.succ_ne_zero outer))
              rw [closes_cons_close]
              exact and_iff_right (Nat.succ_pos outer)
        · simp only [if_neg hopen, if_neg hclose]
          exact hkept inner (fun _ => closes_cons_other hopen hclose) (fun _ => hclose)

/-- Where one procedure more is closed than is open inside, it can be captured. -/
theorem capture_of_closes {inner : Nat} {lexemes : List String}
    (h : Closes (inner + 1) lexemes) : ∃ body left, capture inner lexemes = .ok (body, left) := by
  induction lexemes generalizing inner with
  | nil => exact absurd (closes_nil.mp h) (Nat.succ_ne_zero inner)
  | cons lexeme rest ih =>
      have hkept : ∀ next, Closes (next + 1) rest → ∃ body left,
          (capture next rest).map (fun pair => (lexeme :: pair.1, pair.2)) = .ok (body, left) := by
        intro next hnext
        rcases ih hnext with ⟨body, left, hcapture⟩
        exact ⟨lexeme :: body, left, map_cons_eq_ok_iff.mpr ⟨body, hcapture, rfl⟩⟩
      unfold capture
      by_cases hopen : lexeme = openBrace
      · subst hopen
        simp only [if_true]
        exact hkept (inner + 1) (closes_cons_open.mp h)
      · by_cases hclose : lexeme = closeBrace
        · subst hclose
          simp only [if_neg hopen, if_true]
          cases inner with
          | zero => exact ⟨[], rest, rfl⟩
          | succ outer => exact hkept outer (closes_cons_close.mp h).2
        · simp only [if_neg hopen, if_neg hclose]
          exact hkept inner ((closes_cons_other hopen hclose).mp h)

/-- Balanced lexemes that lines can deliver. -/
structure Code (lexemes : List String) : Prop where
  balanced : Balanced lexemes
  isLexeme : ∀ lexeme ∈ lexemes, IsLexeme lexeme

theorem code_nil : Code [] := ⟨closes_nil.mpr rfl, nofun⟩

/-- Lexemes are balanced if they are what is captured before one more closing brace. -/
theorem balanced_iff_capture {lexemes : List String} :
    Balanced lexemes ↔ (capture 0 (lexemes ++ [closeBrace])).toOption = some (lexemes, []) := by
  constructor
  · intro h
    rw [capture_eq_ok_iff.mpr ⟨rfl, h⟩]
    rfl
  · intro h
    cases hfound : capture 0 (lexemes ++ [closeBrace]) with
    | error depth =>
        rw [hfound] at h
        exact absurd h (by simp only [Except.toOption, reduceCtorEq, not_false_eq_true])
    | ok found =>
        rw [hfound] at h
        rw [Option.some.inj h] at hfound
        exact (capture_eq_ok_iff.mp hfound).2

/-- Whether lexemes are code can be found out by capturing them. -/
instance (lexemes : List String) : Decidable (Code lexemes) :=
  decidable_of_iff
    ((capture 0 (lexemes ++ [closeBrace])).toOption = some (lexemes, []) ∧
      lexemes.all (fun lexeme => lexemeChars lexeme.toList) = true) (by
    constructor
    · rintro ⟨hcapture, hall⟩
      exact ⟨balanced_iff_capture.mpr hcapture, fun lexeme hmem =>
        isLexeme_iff.mpr (List.all_eq_true.mp hall lexeme hmem)⟩
    · intro h
      exact ⟨balanced_iff_capture.mp h.balanced, List.all_eq_true.mpr fun lexeme hmem =>
        isLexeme_iff.mp (h.isLexeme lexeme hmem)⟩)

namespace Code

variable {lexeme : String} {rest : List String}

/-- Code does not begin by closing a procedure. -/
theorem ne_closeBrace (h : Code (lexeme :: rest)) : lexeme ≠ closeBrace := by
  rintro rfl
  exact absurd (closes_cons_close.mp h.balanced).1 (Nat.lt_irrefl 0)

/-- What follows a lexeme that does not begin a procedure is code. -/
theorem of_cons (h : Code (lexeme :: rest)) (hbegins : Machine.beginsProcedure lexeme = false) :
    Code rest := by
  have hopen : lexeme ≠ openBrace := by
    rintro rfl
    exact absurd hbegins (by decide)
  exact ⟨(closes_cons_other hopen h.ne_closeBrace).mp h.balanced,
    fun other hmem => h.isLexeme other (List.mem_cons_of_mem _ hmem)⟩

/-- What follows the brace that begins a procedure closes it. -/
theorem closes_of_begins (h : Code (lexeme :: rest))
    (hbegins : Machine.beginsProcedure lexeme = true) : Closes 1 rest := by
  have hopen := eq_openBrace_of_beginsProcedure (h.isLexeme lexeme List.mem_cons_self) hbegins
  have hbalanced := h.balanced
  rw [hopen] at hbalanced
  exact closes_cons_open.mp hbalanced

/-- A procedure that code begins can be captured. -/
theorem exists_capture (h : Code (lexeme :: rest))
    (hbegins : Machine.beginsProcedure lexeme = true) :
    ∃ body left, capture 0 rest = .ok (body, left) :=
  capture_of_closes (h.closes_of_begins hbegins)

/-- A procedure captured from code is code, and so is what follows it. -/
theorem of_capture (h : Code (lexeme :: rest)) (hbegins : Machine.beginsProcedure lexeme = true)
    {body left : List String} (hcapture : capture 0 rest = .ok (body, left)) :
    Code body ∧ Code left := by
  have hrest := h.closes_of_begins hbegins
  rcases capture_eq_ok_iff.mp hcapture with ⟨rfl, hbody⟩
  have hmem : ∀ other ∈ body ++ closeBrace :: left, IsLexeme other :=
    fun other hother => h.isLexeme other (List.mem_cons_of_mem _ hother)
  -- The body closes nothing that is open outside it, so the brace after it closes the
  -- procedure and leaves nothing open.
  have hclose : Closes 1 (closeBrace :: left) := by
    refine closes_of_append hbody ?_
    rw [Nat.zero_add]
    exact hrest
  exact ⟨⟨hbody, fun other hother => hmem other (List.mem_append_left _ hother)⟩,
    (closes_cons_close.mp hclose).2,
    fun other hother => hmem other (List.mem_append_right _ (List.mem_cons_of_mem _ hother))⟩

end Code

namespace Tokenizer

/-- Keeping a lexeme puts it in front of a body that is read after it. -/
theorem map_cons_eq_ok {found : Except CaptureError (List String)} {lexeme : String}
    {body : List String} (h : found.map (lexeme :: ·) = .ok body) :
    ∃ inside, found = .ok inside ∧ body = lexeme :: inside := by
  cases found with
  | error e => exact absurd h (by simp only [Except.map, reduceCtorEq, not_false_eq_true])
  | ok inside => exact ⟨inside, rfl, (Except.ok.inj h).symm⟩

/-- A body read from a source closes what is open inside it. -/
theorem closes_of_capture (inner : Nat) (t : Tokenizer) :
    ∀ body, (t.capture inner).1 = .ok body → Closes inner body := by
  fun_induction capture inner t with
  | case1 inner t e rest hnext =>
      intro body h
      exact absurd h (by simp only [reduceCtorEq, not_false_eq_true])
  | case2 inner t rest hnext =>
      intro body h
      exact absurd h (by simp only [reduceCtorEq, not_false_eq_true])
  | case3 inner t rest found hnext hlt ih =>
      intro body h
      rcases map_cons_eq_ok h with ⟨inside, hinside, rfl⟩
      exact closes_cons_open.mpr (ih inside hinside)
  | case4 t rest hnext hlt hopen =>
      intro body h
      rw [← Except.ok.inj h]
      exact closes_nil.mpr rfl
  | case5 t rest outer found hnext hlt hopen ih =>
      intro body h
      rcases map_cons_eq_ok h with ⟨inside, hinside, rfl⟩
      exact closes_cons_close.mpr ⟨Nat.succ_pos outer, ih inside hinside⟩
  | case6 inner t lexeme rest hnext hlt hopen hclose found ih =>
      intro body h
      rcases map_cons_eq_ok h with ⟨inside, hinside, rfl⟩
      exact (closes_cons_other hopen hclose).mpr (ih inside hinside)

/-- Reading a lexeme to keep: it is one that lines deliver, and what is left
    delivers lexemes. -/
theorem delivers_of_next_eq {t rest : Tokenizer} {lexeme : String} (ht : t.Delivers)
    (hnext : t.next = (.ok (some lexeme), rest)) : IsLexeme lexeme ∧ rest.Delivers := by
  have hlexeme : IsLexeme lexeme := isLexeme_of_next ht (by rw [hnext])
  have hrest := delivers_next ht
  rw [hnext] at hrest
  exact ⟨hlexeme, hrest⟩

/-- Reading a body leaves a tokenizer that delivers lexemes, and a body is made of
    them. -/
theorem delivers_capture {inner : Nat} {t : Tokenizer} (ht : t.Delivers) :
    (t.capture inner).2.Delivers ∧
      ∀ body, (t.capture inner).1 = .ok body → ∀ lexeme ∈ body, IsLexeme lexeme := by
  -- A lexeme that is kept comes before a body of lexemes.
  have hkept : ∀ {found : Except CaptureError (List String)} {lexeme : String},
      IsLexeme lexeme → (∀ body, found = .ok body → ∀ other ∈ body, IsLexeme other) →
      ∀ body, found.map (lexeme :: ·) = .ok body → ∀ other ∈ body, IsLexeme other := by
    intro found lexeme hlexeme hfound body hbody other hmem
    rcases map_cons_eq_ok hbody with ⟨inside, hinside, rfl⟩
    rcases List.mem_cons.mp hmem with rfl | hmem
    · exact hlexeme
    · exact hfound inside hinside other hmem
  fun_induction capture inner t with
  | case1 inner t e rest hnext =>
      have hrest := delivers_next ht
      rw [hnext] at hrest
      exact ⟨hrest, fun body h => absurd h (by simp only [reduceCtorEq, not_false_eq_true])⟩
  | case2 inner t rest hnext =>
      have hrest := delivers_next ht
      rw [hnext] at hrest
      exact ⟨hrest, fun body h => absurd h (by simp only [reduceCtorEq, not_false_eq_true])⟩
  | case3 inner t rest found hnext hlt ih =>
      rcases delivers_of_next_eq ht hnext with ⟨hlexeme, hrest⟩
      exact ⟨(ih hrest).1, hkept hlexeme (ih hrest).2⟩
  | case4 t rest hnext hlt hopen =>
      refine ⟨(delivers_of_next_eq ht hnext).2, fun body hbody lexeme hmem => ?_⟩
      rw [← Except.ok.inj hbody] at hmem
      exact absurd hmem List.not_mem_nil
  | case5 t rest outer found hnext hlt hopen ih =>
      rcases delivers_of_next_eq ht hnext with ⟨hlexeme, hrest⟩
      exact ⟨(ih hrest).1, hkept hlexeme (ih hrest).2⟩
  | case6 inner t lexeme rest hnext hlt hopen hclose found ih =>
      rcases delivers_of_next_eq ht hnext with ⟨hlexeme, hrest⟩
      exact ⟨(ih hrest).1, hkept hlexeme (ih hrest).2⟩

/-- A procedure captured from a source is code. -/
theorem code_of_capture {t : Tokenizer} (ht : t.Delivers) {body : List String}
    (h : (t.capture 0).1 = .ok body) : Code body :=
  ⟨closes_of_capture 0 t body h, (delivers_capture ht).2 body h⟩

end Tokenizer

end PathScript
