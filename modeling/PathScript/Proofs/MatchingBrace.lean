import PathScript.Proofs.LazyReading
import PathScript.Proofs.ReadingText
import PathScript.Proofs.Sequencing

/-!
# The Brace that Closes a Procedure

Which brace closes a procedure can be said by counting alone. Of all beginnings of
the lexemes after the brace that opened it, take the shortest that closes one
procedure more than it opens: it ends in the brace, and what is before that is the
body. If there is no such beginning, then the procedure is never closed, and the
same count says how many procedures are left open at the end.

Capturing does not compare beginnings. It keeps the number of procedures open and
stops where it runs out. That the two agree rests on the number changing by one at
most with each lexeme, so that a list that closes more than it opens has a beginning
that closes just one more. Capturing itself finds that beginning, so no separate
argument is needed: capturing fails only where no beginning closes too much.

A source that offers some lexemes is captured from as the list of them is. What it is
left with offers the lexemes after the brace.

## Main definitions

* `ClosesOneMore`: Lexemes that close one procedure more than they open.
* `ClosedBy`: The body and what follows, split at the brace that closes.
* `Tokenizer.Offers`: The lexemes that a source has yet to deliver.
* `Tokenizer.exhausted`: A source when all of it has been read.

## Theorems

* `unclosed_of_capture`: When capturing fails, and with how many procedures open.
* `closedBy_iff`: The brace that closes stands after balanced lexemes.
* `exists_closedBy_iff`: A procedure is closed if anything closes too much.
* `Tokenizer.agrees_capture`: Capturing from a source and from its lexemes.
* `capture_finds_matching_brace`: What capturing comes to, for lists, sources and
  machines.
-/

namespace PathScript

/-- Lexemes that close one procedure more than they open. -/
def ClosesOneMore (lexemes : List String) : Prop :=
  lexemes.count closeBrace = lexemes.count openBrace + 1

/-- Lexemes that split into a body, the brace that closes it, and others. The body
    and the brace are the shortest beginning that closes one procedure more than it
    opens. -/
structure ClosedBy (lexemes body left : List String) : Prop where
  split : lexemes = body ++ closeBrace :: left
  closes : ClosesOneMore (body ++ [closeBrace])
  shortest : ∀ initial, initial <+: lexemes → ClosesOneMore initial →
    (body ++ [closeBrace]).length ≤ initial.length

section Step

variable {inner : Nat} {rest : List String}

theorem capture_cons_open :
    capture inner (openBrace :: rest)
      = (capture (inner + 1) rest).map fun found => (openBrace :: found.1, found.2) := by
  simp only [capture, if_true]

theorem capture_cons_close :
    capture (inner + 1) (closeBrace :: rest)
      = (capture inner rest).map fun found => (closeBrace :: found.1, found.2) := by
  rw [capture, if_neg (by decide), if_pos rfl]

/-- The brace that closes the procedure itself ends the body. -/
theorem capture_cons_close_zero : capture 0 (closeBrace :: rest) = .ok ([], rest) := by
  rw [capture, if_neg (by decide), if_pos rfl]

theorem capture_cons_other {lexeme : String} (hopen : lexeme ≠ openBrace)
    (hclose : lexeme ≠ closeBrace) :
    capture inner (lexeme :: rest)
      = (capture inner rest).map fun found => (lexeme :: found.1, found.2) := by
  simp only [capture, if_neg hopen, if_neg hclose]

end Step

/-- Keeping a lexeme does not change how capturing fails. -/
theorem map_cons_eq_error_iff {found : Except Nat (List String × List String)} {lexeme : String}
    {depth : Nat} :
    found.map (fun pair => (lexeme :: pair.1, pair.2)) = .error depth ↔ found = .error depth := by
  cases found with
  | error other => exact Iff.rfl
  | ok pair => simp only [Except.map, reduceCtorEq]

/-- What one brace opens and closes. -/
theorem count_brace :
    ([openBrace].count openBrace = 1 ∧ [openBrace].count closeBrace = 0) ∧
      [closeBrace].count openBrace = 0 ∧ [closeBrace].count closeBrace = 1 := by
  decide

/-- Lexemes that never close more than is open leave procedures open. -/
theorem unclosed_of_capture {inner depth : Nat} {lexemes : List String}
    (h : capture inner lexemes = .error depth) :
    (∀ initial, initial <+: lexemes →
      initial.count closeBrace ≤ inner + initial.count openBrace) ∧
    depth + lexemes.count closeBrace = inner + 1 + lexemes.count openBrace := by
  induction lexemes generalizing inner with
  | nil =>
      rw [capture, Except.error.injEq] at h
      refine ⟨fun initial hinitial => ?_, h.symm⟩
      rw [List.prefix_nil.mp hinitial]
      exact Nat.zero_le _
  | cons lexeme rest ih =>
      have hcount : ∀ brace (others : List String),
          (lexeme :: others).count brace = [lexeme].count brace + others.count brace :=
        fun brace others => @List.count_append _ _ brace [lexeme] others
      -- A lexeme that is kept moves the number of open procedures by what it opens
      -- and closes, and the rest fails from there.
      have hkept : ∀ next, next + [lexeme].count closeBrace = inner + [lexeme].count openBrace →
          (capture next rest).map (fun pair => (lexeme :: pair.1, pair.2)) = .error depth →
          (∀ initial, initial <+: lexeme :: rest →
            initial.count closeBrace ≤ inner + initial.count openBrace) ∧
          depth + (lexeme :: rest).count closeBrace
            = inner + 1 + (lexeme :: rest).count openBrace := by
        intro next hnext hfailed
        rcases ih (map_cons_eq_error_iff.mp hfailed) with ⟨hwithin, hdepth⟩
        refine ⟨fun initial hinitial => ?_, ?_⟩
        · rcases List.prefix_cons_iff.mp hinitial with rfl | ⟨others, rfl, hothers⟩
          · exact Nat.zero_le _
          · have hle := hwithin others hothers
            rw [hcount _ others, hcount _ others]
            omega
        · rw [hcount _ rest, hcount _ rest]
          omega
      by_cases hopen : lexeme = openBrace
      · subst hopen
        rw [capture_cons_open] at h
        exact hkept (inner + 1) (by rw [count_brace.1.1, count_brace.1.2]) h
      · by_cases hclose : lexeme = closeBrace
        · subst hclose
          cases inner with
          | zero =>
              rw [capture_cons_close_zero] at h
              cases h
          | succ outer =>
              rw [capture_cons_close] at h
              exact hkept outer (by rw [count_brace.2.1, count_brace.2.2]) h
        · rw [capture_cons_other hopen hclose] at h
          have hnone : [lexeme].count openBrace = 0 :=
            List.count_eq_zero.mpr fun hmem => hopen (List.mem_singleton.mp hmem).symm
          have hnone' : [lexeme].count closeBrace = 0 :=
            List.count_eq_zero.mpr fun hmem => hclose (List.mem_singleton.mp hmem).symm
          exact hkept inner (by omega) h

theorem closesOneMore_append_closeBrace {body : List String} (h : Balanced body) :
    ClosesOneMore (body ++ [closeBrace]) := by
  have hsettled := h.settled
  rw [ClosesOneMore, List.count_append, List.count_append, count_brace.2.1, count_brace.2.2]
  omega

/-- Lexemes that close more than they open have a beginning that closes just one more. -/
theorem exists_closesOneMore {lexemes : List String}
    (h : lexemes.count openBrace < lexemes.count closeBrace) :
    ∃ initial, initial <+: lexemes ∧ ClosesOneMore initial := by
  cases hfound : capture 0 lexemes with
  | error depth =>
      have hle := (unclosed_of_capture hfound).1 lexemes (List.prefix_refl lexemes)
      omega
  | ok found =>
      rcases found with ⟨body, left⟩
      rcases capture_eq_ok_iff.mp hfound with ⟨rfl, hbody⟩
      refine ⟨body ++ [closeBrace], ?_, closesOneMore_append_closeBrace hbody⟩
      exact (List.prefix_append_right_inj body).mpr (List.prefix_append [closeBrace] left)

/-- The brace that closes is the one that stands after balanced lexemes. -/
theorem closedBy_iff {lexemes body left : List String} :
    ClosedBy lexemes body left ↔ lexemes = body ++ closeBrace :: left ∧ Balanced body := by
  have hlength : (body ++ [closeBrace]).length = body.length + 1 := List.length_append
  constructor
  · intro h
    have hcloses := h.closes
    rw [ClosesOneMore, List.count_append, List.count_append, count_brace.2.1, count_brace.2.2]
      at hcloses
    refine ⟨h.split, balanced_iff.mpr ⟨fun initial hinitial => ?_, by omega⟩⟩
    -- If a beginning of the body closed more than it opens, then one that is no longer
    -- would close one more, and so be shorter than the shortest.
    apply Nat.le_of_not_lt
    intro hlt
    rcases exists_closesOneMore hlt with ⟨early, hearly, hone⟩
    have hbody : body <+: lexemes := by
      rw [h.split]
      exact List.prefix_append _ _
    have hshortest := h.shortest early ((hearly.trans hinitial).trans hbody) hone
    have hle := (hearly.trans hinitial).length_le
    omega
  · rintro ⟨hsplit, hbody⟩
    refine ⟨hsplit, closesOneMore_append_closeBrace hbody, fun initial hinitial hone => ?_⟩
    apply Nat.le_of_not_lt
    intro hlt
    have hinside : initial <+: body := by
      rw [hsplit] at hinitial
      exact List.prefix_of_prefix_length_le hinitial (List.prefix_append _ _) (by omega)
    have hwithin := hbody.within initial hinside
    rw [ClosesOneMore] at hone
    omega

/-- A list is captured from just in case a brace closes the procedure. -/
theorem capture_eq_ok_iff_closedBy {lexemes body left : List String} :
    capture 0 lexemes = .ok (body, left) ↔ ClosedBy lexemes body left := by
  rw [capture_eq_ok_iff, closedBy_iff, Balanced]

/-- A procedure is closed just in case some beginning closes one procedure more than it
    opens. -/
theorem exists_closedBy_iff {lexemes : List String} :
    (∃ body left, ClosedBy lexemes body left) ↔
      ∃ initial, initial <+: lexemes ∧ ClosesOneMore initial := by
  constructor
  · rintro ⟨body, left, h⟩
    refine ⟨body ++ [closeBrace], ?_, h.closes⟩
    rw [h.split]
    exact (List.prefix_append_right_inj body).mpr (List.prefix_append [closeBrace] left)
  · rintro ⟨initial, hinitial, hone⟩
    cases hfound : capture 0 lexemes with
    | error depth =>
        have hle := (unclosed_of_capture hfound).1 initial hinitial
        rw [ClosesOneMore] at hone
        omega
    | ok found => exact ⟨found.1, found.2, capture_eq_ok_iff_closedBy.mp hfound⟩

/-- Where nothing closes the procedure, capturing tells how many are open. -/
theorem capture_of_unclosed {lexemes : List String}
    (h : ¬∃ initial, initial <+: lexemes ∧ ClosesOneMore initial) :
    ∃ depth, capture 0 lexemes = .error depth ∧
      (depth : Int) = 1 + lexemes.count openBrace - lexemes.count closeBrace := by
  cases hfound : capture 0 lexemes with
  | error depth =>
      have hdepth := (unclosed_of_capture hfound).2
      exact ⟨depth, rfl, by omega⟩
  | ok found =>
      exact absurd (exists_closedBy_iff.mp ⟨_, _, capture_eq_ok_iff_closedBy.mp hfound⟩) h

namespace Tokenizer

/-- A source with only lines that can be decoded, which has yet to deliver some
    lexemes: those pending of the line it is at, and those of the lines after it. -/
def Offers (t : Tokenizer) (remaining : List String) : Prop :=
  ∃ lines : List String, t.unread = lines.map .ok ∧
    remaining = t.pending ++ lines.flatMap lexemes

/-- The source when all of it has been read. -/
def exhausted (t : Tokenizer) : Tokenizer := ⟨t.line + t.unread.length, [], []⟩

theorem offers_ofText (text : String) : (ofText text).Offers (textLexemes text) := by
  refine ⟨linesOf text, ?_, ?_⟩
  · rw [ofText_eq]
  · rw [ofText_eq, List.nil_append, flatMap_lexemes_linesOf]

variable {t : Tokenizer} {remaining : List String}

theorem Offers.drain_eq (h : t.Offers remaining) : t.drain = (.ok remaining, t.exhausted) := by
  rcases h with ⟨lines, hunread, rfl⟩
  rw [drain_of_unread hunread, exhausted, hunread, List.length_map]

theorem Offers.readable (h : t.Offers remaining) : t.Readable := by
  rcases h with ⟨lines, hunread, _⟩
  intro raw hraw
  rw [hunread] at hraw
  rcases List.mem_map.mp hraw with ⟨line, _, rfl⟩
  exact ⟨line, rfl⟩

/-- A source whose lines can be decoded offers what draining it returns. -/
theorem Readable.offers (ht : t.Readable) (h : t.drain.1 = .ok remaining) : t.Offers remaining := by
  have hlines : ∃ lines : List String, t.unread = lines.map .ok := by
    clear h
    rcases t with ⟨line, pending, unread⟩
    induction unread with
    | nil => exact ⟨[], rfl⟩
    | cons raw unread ih =>
        rcases List.forall_mem_cons.mp ht with ⟨⟨text, rfl⟩, hunread⟩
        rcases ih hunread with ⟨lines, hlines⟩
        exact ⟨text :: lines, congrArg _ hlines⟩
  rcases hlines with ⟨lines, hunread⟩
  rw [drain_of_unread hunread, Except.ok.injEq] at h
  exact ⟨lines, hunread, h.symm⟩

/-- What capturing from a source comes to, against capturing from the lexemes it
    offers. The one body is the other, and what is left of the source drains to what is
    left of the list. If the list fails, so does the source, at its end. -/
structure Agrees (ending : Tokenizer) (listed : Except Nat (List String × List String))
    (read : Except CaptureError (List String) × Tokenizer) : Prop where
  ok : ∀ body left, listed = .ok (body, left) →
    read.1 = .ok body ∧ read.2.drain = (.ok left, ending)
  error : ∀ depth, listed = .error depth → read = (.error (.unclosed depth), ending)

/-- A lexeme is kept by both. -/
theorem Agrees.keep {ending : Tokenizer} {listed : Except Nat (List String × List String)}
    {read : Except CaptureError (List String) × Tokenizer} (lexeme : String)
    (h : Agrees ending listed read) :
    Agrees ending (listed.map fun found => (lexeme :: found.1, found.2))
      (read.1.map (lexeme :: ·), read.2) := by
  refine ⟨fun body left hlisted => ?_, fun depth hlisted => ?_⟩
  · rcases map_cons_eq_ok_iff.mp hlisted with ⟨inside, hinside, rfl⟩
    rcases h.ok inside left hinside with ⟨hread, hleft⟩
    rw [hread]
    exact ⟨rfl, hleft⟩
  · rw [h.error depth (map_cons_eq_error_iff.mp hlisted)]
    rfl

/-- Reading a lexeme of a source that can be drained. -/
theorem drain_eq_cons {t rest : Tokenizer} {lexeme : String} {remaining : List String}
    (hnext : t.next = (.ok (some lexeme), rest)) (h : t.drain.1 = .ok remaining) :
    ∃ others, remaining = lexeme :: others ∧ rest.drain.1 = .ok others ∧
      t.drain.2 = rest.drain.2 := by
  rw [drain_of_lexeme hnext] at h ⊢
  cases hrest : rest.drain.1 with
  | error e =>
      rw [hrest] at h
      cases h
  | ok others =>
      rw [hrest] at h
      exact ⟨others, (Except.ok.inj h).symm, rfl, rfl⟩

/-- Capturing from a source and from the lexemes it offers comes to the same. The
    induction is on the source, one lexeme at a time. -/
theorem agrees_capture (inner : Nat) (t : Tokenizer) :
    ∀ remaining, t.drain.1 = .ok remaining →
      Agrees t.drain.2 (PathScript.capture inner remaining) (t.capture inner) := by
  fun_induction capture inner t with
  | case1 inner t e rest hnext =>
      intro remaining h
      rw [drain_of_error hnext] at h
      cases h
  | case2 inner t rest hnext =>
      intro remaining h
      rw [drain_of_none hnext] at h ⊢
      rw [← Except.ok.inj h]
      refine ⟨fun body left hlisted => ?_, fun depth hlisted => ?_⟩
      · cases hlisted
      · rw [← Except.error.inj hlisted]
  | case3 inner t rest found hnext hlt ih =>
      intro remaining h
      rcases drain_eq_cons hnext h with ⟨others, rfl, hothers, hending⟩
      rw [hending, capture_cons_open]
      exact (ih others hothers).keep openBrace
  | case4 t rest hnext hlt hopen =>
      intro remaining h
      rcases drain_eq_cons hnext h with ⟨others, rfl, hothers, hending⟩
      rw [hending, capture_cons_close_zero]
      refine ⟨fun body left hlisted => ?_, fun depth hlisted => ?_⟩
      · cases hlisted
        exact ⟨rfl, Prod.ext hothers rfl⟩
      · cases hlisted
  | case5 t rest outer found hnext hlt hopen ih =>
      intro remaining h
      rcases drain_eq_cons hnext h with ⟨others, rfl, hothers, hending⟩
      rw [hending, capture_cons_close]
      exact (ih others hothers).keep closeBrace
  | case6 inner t lexeme rest hnext hlt hopen hclose found ih =>
      intro remaining h
      rcases drain_eq_cons hnext h with ⟨others, rfl, hothers, hending⟩
      rw [hending, capture_cons_other hopen hclose]
      exact (ih others hothers).keep lexeme

/-- Capturing from a source in which a brace closes the procedure. -/
theorem Offers.capture_of_closedBy {body left : List String} (ht : t.Offers remaining)
    (h : ClosedBy remaining body left) :
    ∃ rest, t.capture 0 = (.ok body, rest) ∧ rest.Offers left ∧ rest.exhausted = t.exhausted := by
  have hdrain := ht.drain_eq
  have hagrees := agrees_capture 0 t remaining (by rw [hdrain])
  rcases hagrees.ok body left (capture_eq_ok_iff_closedBy.mpr h) with ⟨hread, hleft⟩
  have hoffers : (t.capture 0).2.Offers left :=
    (readable_capture ht.readable).2.offers (by rw [hleft])
  refine ⟨(t.capture 0).2, Prod.ext hread rfl, hoffers, ?_⟩
  rw [hoffers.drain_eq, hdrain, Prod.mk.injEq] at hleft
  exact hleft.2

/-- Capturing from a source in which none does. -/
theorem Offers.capture_of_error {depth : Nat} (ht : t.Offers remaining)
    (h : PathScript.capture 0 remaining = .error depth) :
    t.capture 0 = (.error (.unclosed depth), t.exhausted) := by
  have hdrain := ht.drain_eq
  have hread := (agrees_capture 0 t remaining (by rw [hdrain])).error depth h
  rw [hdrain] at hread
  exact hread

end Tokenizer

namespace Machine

variable {m : Machine}

/-- Running a procedure that is never closed. -/
theorem runLexemes_of_capture_error {call : Caller} {lexeme : String} {rest : List String}
    {depth : Nat} (hbegins : beginsProcedure lexeme = true)
    (hcapture : capture 0 rest = .error depth) :
    m.runLexemes call (lexeme :: rest) = .failed m (m.fault openBrace (unclosed depth)) := by
  rw [runLexemes, if_pos hbegins]
  split
  · next hfailed =>
      rw [hcapture, Except.error.injEq] at hfailed
      rw [hfailed]
  · next hfound =>
      rw [hcapture] at hfound
      cases hfound

theorem captureInput_of_ok {t rest : Tokenizer} {lexeme : String} {body : List String}
    (hinput : m.input = some t) (hcapture : t.capture 0 = (.ok body, rest)) :
    m.captureInput lexeme = ({ m with input := some rest } : Machine).pushCaptured lexeme body := by
  simp only [captureInput, hinput, hcapture]

theorem captureInput_of_unclosed {t rest : Tokenizer} {lexeme : String} {depth : Nat}
    (hinput : m.input = some t)
    (hcapture : t.capture 0 = (.error (.unclosed depth), rest)) :
    m.captureInput lexeme
      = .failed { m with input := some rest }
          (({ m with input := some rest } : Machine).fault openBrace (unclosed depth)) := by
  simp only [captureInput, hinput, hcapture]

end Machine

/-- Capturing finds exactly the brace that closes the procedure. It succeeds just in
    case some beginning of the lexemes closes one procedure more than it opens; the body is
    what stands before the last brace of the shortest such beginning, which is balanced, and
    what goes on is what follows that brace. Otherwise everything is read, and the report
    counts the procedures open at the end. A machine changes in its source alone, but for
    the procedure that it pushes when there is one. -/
theorem capture_finds_matching_brace (lexemes : List String) :
    ((∃ body left, capture 0 lexemes = .ok (body, left)) ↔
      ∃ initial, initial <+: lexemes ∧ ClosesOneMore initial) ∧
    (∀ body left, capture 0 lexemes = .ok (body, left) ↔ ClosedBy lexemes body left) ∧
    (∀ body left, ClosedBy lexemes body left →
      Balanced body ∧
      (∀ t : Tokenizer, t.Offers lexemes → ∃ rest : Tokenizer,
        t.capture 0 = (.ok body, rest) ∧ rest.Offers left ∧ rest.exhausted = t.exhausted) ∧
      ∀ (m : Machine) (lexeme : String), Machine.beginsProcedure lexeme = true →
        (∀ call, m.runLexemes call (lexeme :: lexemes)
          = (m.pushCaptured lexeme body).andThen (Machine.runLexemes call left)) ∧
        ∀ t, m.input = some t → t.Offers lexemes → ∃ rest : Tokenizer, rest.Offers left ∧
          m.captureInput lexeme
            = ({ m with input := some rest } : Machine).pushCaptured lexeme body) ∧
    ((¬∃ initial, initial <+: lexemes ∧ ClosesOneMore initial) →
      ∃ depth : Nat, (depth : Int) = 1 + lexemes.count openBrace - lexemes.count closeBrace ∧
        capture 0 lexemes = .error depth ∧
        (∀ t : Tokenizer, t.Offers lexemes →
          t.capture 0 = (.error (.unclosed depth), t.exhausted)) ∧
        ∀ (m : Machine) (lexeme : String), Machine.beginsProcedure lexeme = true →
          (∀ call, m.runLexemes call (lexeme :: lexemes)
            = .failed m (.report ⟨.lexical, some openBrace, m.line?.map Int.ofNat,
                some ("stream ended inside " ++ toString depth ++ " open procedure(s)")⟩)) ∧
          ∀ t, m.input = some t → t.Offers lexemes →
            m.captureInput lexeme
              = .failed { m with input := some t.exhausted }
                  (.report ⟨.lexical, some openBrace, some t.exhausted.line,
                    some ("stream ended inside " ++ toString depth ++ " open procedure(s)")⟩)) := by
  refine ⟨?_, fun body left => capture_eq_ok_iff_closedBy, fun body left h => ?_, fun h => ?_⟩
  · simp only [capture_eq_ok_iff_closedBy]
    exact exists_closedBy_iff
  · have hcapture := capture_eq_ok_iff_closedBy.mpr h
    refine ⟨(closedBy_iff.mp h).2, fun t ht => ht.capture_of_closedBy h,
      fun m lexeme hbegins => ⟨fun call => Machine.runLexemes_of_capture hbegins hcapture,
        fun t hinput ht => ?_⟩⟩
    rcases ht.capture_of_closedBy h with ⟨rest, hread, hrest, _⟩
    exact ⟨rest, hrest, Machine.captureInput_of_ok hinput hread⟩
  · rcases capture_of_unclosed h with ⟨depth, hcapture, hdepth⟩
    refine ⟨depth, hdepth, hcapture, fun t ht => ht.capture_of_error hcapture,
      fun m lexeme hbegins => ⟨fun call => ?_, fun t hinput ht => ?_⟩⟩
    · exact Machine.runLexemes_of_capture_error hbegins hcapture
    · exact Machine.captureInput_of_unclosed hinput (ht.capture_of_error hcapture)

/-- A body with a procedure inside, over two lines, and a source that ends inside two
    procedures. -/
theorem capture_finds_matching_brace_lines :
    (∃ rest : Tokenizer,
      (Tokenizer.ofText "1 \x7b 2\n\x7d \x7d 3 \x7d").capture 0
        = (.ok ["1", openBrace, "2", closeBrace], rest) ∧
      rest.Offers ["3", closeBrace] ∧ rest.exhausted.line = 2) ∧
    (Tokenizer.ofText "\x7b 1 \x7d\n\x7b").capture 0
      = (.error (.unclosed 2), (Tokenizer.ofText "\x7b 1 \x7d\n\x7b").exhausted) := by
  constructor
  · have hlexemes : textLexemes "1 \x7b 2\n\x7d \x7d 3 \x7d"
        = ["1", openBrace, "2", closeBrace, closeBrace, "3", closeBrace] := by decide +kernel
    have hclosed := capture_finds_matching_brace (textLexemes "1 \x7b 2\n\x7d \x7d 3 \x7d")
    have hbody : ClosedBy (textLexemes "1 \x7b 2\n\x7d \x7d 3 \x7d")
        ["1", openBrace, "2", closeBrace] ["3", closeBrace] := by
      rw [hlexemes]
      exact capture_eq_ok_iff_closedBy.mp rfl
    rcases (hclosed.2.2.1 _ _ hbody).2.1 _ (Tokenizer.offers_ofText _)
      with ⟨rest, hread, hrest, hend⟩
    refine ⟨rest, hread, hrest, ?_⟩
    rw [hend]
    decide +kernel
  · have hlexemes : textLexemes "\x7b 1 \x7d\n\x7b"
        = [openBrace, "1", closeBrace, openBrace] := by decide +kernel
    have hopen := capture_finds_matching_brace (textLexemes "\x7b 1 \x7d\n\x7b")
    have hnone : ¬∃ initial, initial <+: textLexemes "\x7b 1 \x7d\n\x7b" ∧
        ClosesOneMore initial := by
      rw [← hopen.1, hlexemes]
      rintro ⟨body, left, h⟩
      cases h
    rcases hopen.2.2.2 hnone with ⟨depth, hdepth, _, hread, _⟩
    have htwo : depth = 2 := Int.ofNat.inj (hdepth.trans (by decide +kernel))
    rw [htwo] at hread
    exact hread _ (Tokenizer.offers_ofText _)

end PathScript
