import PathScript.Proofs.WholeText

/-!
# Reading a Text Lazily

A tokenizer can be asked for two things, and in any order: for the next lexeme, and
to pass over lines up to a marker. The one goes by lexemes and the other by lines,
and they share the place that reading has come to. This module says what that place
is, whatever has been asked before.

What has been asked is a session, which keeps a log of its exchanges. The log is all
that is needed to say what is left of a text: the lines after the last one read, and
before them those lexemes of the last line read that have not been delivered. These
are all its lexemes but as many as the log says were delivered on that line; or none,
if lines have been passed over up to it.

The tokenizer holds just this, which is shown exchange by exchange. Asking for a
lexeme when none is pending reads a line and asks again. Reading a line keeps the
correspondence, because no exchange can have ended on a line not yet read. So only
the two ends of the search need a look: a pending lexeme, and the end of the text.

## Main definitions

* `Bears`: A line that equals a marker, but for line ends.
* `Request`, `Exchange`, `Session`: What a tokenizer was asked.
* `Session.undelivered`: What is left of the last line read.
* `Session.remaining`: What is left of a text.
* `Session.Faithful`: A tokenizer that holds what is left.

## Theorems

* `bears_iff`: Lines are compared as they should be.
* `Tokenizer.next_readLine`: Asking for a lexeme when none is pending.
* `Tokenizer.drain_of_unread`: What draining a tokenizer returns.
* `Session.Faithful.make`: Every request keeps a tokenizer faithful.
* `reading_is_faithful_and_lazy`: What any sequence of requests leaves, and what the
  next request comes to.
-/

namespace PathScript

/-- A line that equals a marker once all carriage returns and line feeds at its end are
    taken off. No line does if there is no marker. -/
def Bears (line : String) (marker : Option String) : Prop :=
  ∃ content ends, marker = some content ∧ line.toList = content.toList ++ ends ∧
    (∀ c ∈ ends, c = '\r' ∨ c = '\n') ∧
    ∀ c ∈ content.toList.getLast?, c ≠ '\r' ∧ c ≠ '\n'

/-- Lines are compared with a marker as they should be. -/
theorem bears_iff {line : String} {marker : Option String} :
    Bears line marker ↔ some (Tokenizer.stripLineEnd line) = marker := by
  constructor
  · rintro ⟨content, ends, rfl, hline, hends, hcontent⟩
    -- Seen from its end, the line is a run of line ends up to the content.
    have hdrop : line.toList.reverse.dropWhile (fun c => c == '\r' || c == '\n')
        = content.toList.reverse := by
      rw [hline, List.reverse_append]
      apply dropWhile_append_of_head
      · intro c hc
        simpa using hends c (List.mem_reverse.mp hc)
      · intro c hc
        rw [List.head?_reverse] at hc
        simpa using hcontent c hc
    rw [Tokenizer.stripLineEnd, hdrop, List.reverse_reverse, String.ofList_toList]
  · intro h
    -- What is taken off is the run of line ends, and it is taken off whole.
    refine ⟨Tokenizer.stripLineEnd line,
      (line.toList.reverse.takeWhile fun c => c == '\r' || c == '\n').reverse, h.symm, ?_, ?_, ?_⟩
    · rw [Tokenizer.stripLineEnd, String.toList_ofList, ← List.reverse_append,
        List.takeWhile_append_dropWhile, List.reverse_reverse]
    · intro c hc
      simpa using List.all_eq_true.mp List.all_takeWhile c (List.mem_reverse.mp hc)
    · intro c hc
      rw [Tokenizer.stripLineEnd, String.toList_ofList, List.getLast?_reverse] at hc
      have hhead := List.head?_dropWhile_not (fun c => c == '\r' || c == '\n') line.toList.reverse
      rw [Option.mem_def.mp hc] at hhead
      simpa using hhead

namespace Tokenizer

/-- Asking for a lexeme when none is pending reads a line and asks again. -/
theorem next_readLine (line : Nat) (text : String) (unread : List RawLine) :
    next ⟨line, [], .ok text :: unread⟩ = next ⟨line + 1, lexemes text, unread⟩ := by
  simp only [next, nextLine]
  cases lexemes text with
  | nil => rfl
  | cons lexeme pending => rfl

theorem ofText_eq (text : String) : ofText text = ⟨0, [], (linesOf text).map .ok⟩ := by
  simp only [ofText, linesOf, List.map_map, Function.comp_def]

section Drain

variable {t rest : Tokenizer}

/-- Draining a tokenizer whose next line cannot be decoded. -/
theorem drain_of_error {e : DecodeError} (h : t.next = (.error e, rest)) :
    t.drain = (.error e, rest) := by
  rw [drain]
  split
  · next e' rest' h' =>
      rw [h', Prod.mk.injEq, Except.error.injEq] at h
      rw [h.1, h.2]
  · next rest' h' => rw [h'] at h; cases h
  · next lexeme' rest' h' => rw [h'] at h; cases h

/-- Draining a tokenizer that delivers a lexeme. -/
theorem drain_of_lexeme {lexeme : String} (h : t.next = (.ok (some lexeme), rest)) :
    t.drain = (rest.drain.1.map (lexeme :: ·), rest.drain.2) := by
  rw [drain]
  split
  · next e rest' h' => rw [h'] at h; cases h
  · next rest' h' => rw [h'] at h; cases h
  · next lexeme' rest' h' =>
      rw [h', Prod.mk.injEq, Except.ok.injEq, Option.some.injEq] at h
      rcases h with ⟨rfl, rfl⟩
      rfl

/-- Draining a tokenizer at the end of its source. -/
theorem drain_of_none (h : t.next = (.ok none, rest)) : t.drain = (.ok [], rest) := by
  rw [drain]
  split
  · next e rest' h' => rw [h'] at h; cases h
  · next rest' h' =>
      rw [h', Prod.mk.injEq] at h
      rw [h.2]
  · next lexeme' rest' h' => rw [h'] at h; cases h

/-- Draining begins with the next lexeme, so it depends on nothing else. -/
theorem drain_congr {t' : Tokenizer} (h : t.next = t'.next) : t.drain = t'.drain := by
  rcases hnext : t'.next with ⟨_ | _ | lexeme, rest⟩
  · rw [drain_of_error hnext, drain_of_error (h.trans hnext)]
  · rw [drain_of_none hnext, drain_of_none (h.trans hnext)]
  · rw [drain_of_lexeme hnext, drain_of_lexeme (h.trans hnext)]

end Drain

/-- A pending lexeme is delivered without reading. -/
theorem next_of_pending {t : Tokenizer} {lexeme : String} {pending : List String}
    (h : t.pending = lexeme :: pending) :
    t.next = (.ok (some lexeme), ⟨t.line, pending, t.unread⟩) := by
  simp only [next, h]

section Lines

variable {t : Tokenizer} {lines : List String}

/-- Draining returns what is pending and the lexemes of all unread lines, and reads
    these to the end. -/
theorem drain_of_unread (h : t.unread = lines.map .ok) :
    t.drain = (.ok (t.pending ++ lines.flatMap lexemes), ⟨t.line + lines.length, [], []⟩) := by
  rcases t with ⟨line, pending, unread⟩
  cases h
  -- By induction on the lines, and for each on what is pending of the line before it.
  induction lines generalizing line pending with
  | nil =>
      induction pending with
      | nil => exact drain_of_none rfl
      | cons lexeme pending ih =>
          rw [drain_of_lexeme rfl, ih]
          rfl
  | cons text lines ih =>
      induction pending with
      | nil =>
          rw [List.map_cons, drain_congr (next_readLine _ _ _), ih]
          simp [Nat.add_assoc, Nat.add_comm 1]
      | cons lexeme pending ih' =>
          rw [drain_of_lexeme rfl, ih']
          rfl

/-- The next lexeme is the first that draining would return. -/
theorem next_of_unread (h : t.unread = lines.map .ok) :
    t.next.1 = .ok (t.pending ++ lines.flatMap lexemes).head? := by
  rcases t with ⟨line, pending, unread⟩
  cases h
  induction lines generalizing line pending with
  | nil =>
      cases pending with
      | nil => rfl
      | cons lexeme pending => rfl
  | cons text lines ih =>
      cases pending with
      | nil =>
          rw [List.map_cons, next_readLine, ih]
          rfl
      | cons lexeme pending => rfl

/-- What draining would return after that are the others. -/
theorem drain_next_of_unread (h : t.unread = lines.map .ok) :
    t.next.2.drain
      = (.ok (t.pending ++ lines.flatMap lexemes).tail, ⟨t.line + lines.length, [], []⟩) := by
  rcases t with ⟨line, pending, unread⟩
  cases h
  induction lines generalizing line pending with
  | nil =>
      cases pending with
      | nil => exact @drain_of_unread ⟨line, [], []⟩ [] rfl
      | cons lexeme pending => exact @drain_of_unread ⟨line, pending, []⟩ [] rfl
  | cons text lines ih =>
      cases pending with
      | nil =>
          rw [List.map_cons, next_readLine, ih]
          simp [Nat.add_assoc, Nat.add_comm 1]
      | cons lexeme pending =>
          exact @drain_of_unread ⟨line, pending, (text :: lines).map .ok⟩ (text :: lines) rfl

/-- Lines without lexemes are read up to the first that has one, and no further. -/
theorem next_of_blank {blank after : List String} {text lexeme : String} {left : List String}
    (h : t.unread = (blank ++ text :: after).map .ok) (hpending : t.pending = [])
    (hblank : ∀ earlier ∈ blank, lexemes earlier = []) (htext : lexemes text = lexeme :: left) :
    t.next = (.ok (some lexeme), ⟨t.line + blank.length + 1, left, after.map .ok⟩) := by
  rcases t with ⟨line, pending, unread⟩
  cases h
  cases hpending
  induction blank generalizing line with
  | nil =>
      rw [List.nil_append, List.map_cons, next_readLine, htext]
      rfl
  | cons first blank ih =>
      rcases List.forall_mem_cons.mp hblank with ⟨hfirst, hblank⟩
      rw [List.cons_append, List.map_cons, next_readLine, hfirst, ih hblank]
      simp [Nat.add_assoc, Nat.add_comm 1]

/-- If there is no other lexeme, all lines are read. -/
theorem next_of_all_blank (h : t.unread = lines.map .ok) (hpending : t.pending = [])
    (hblank : ∀ text ∈ lines, lexemes text = []) :
    t.next = (.ok none, ⟨t.line + lines.length, [], []⟩) := by
  rcases t with ⟨line, pending, unread⟩
  cases h
  cases hpending
  induction lines generalizing line with
  | nil => rfl
  | cons first lines ih =>
      rcases List.forall_mem_cons.mp hblank with ⟨hfirst, hblank⟩
      rw [List.map_cons, next_readLine, hfirst, ih hblank]
      simp [Nat.add_assoc, Nat.add_comm 1]

end Lines

section Markers

variable {marker : Option String}

/-- Lines are passed over up to and with the first that bears the marker. -/
theorem skipLines_of_bears {before : List String} (hbefore : ∀ text ∈ before, ¬Bears text marker)
    {text : String} (htext : Bears text marker) (line count : Nat) (after : List String) :
    skipLines marker line count ((before ++ text :: after).map .ok)
      = ⟨.ok true, count + before.length + 1, ⟨line + before.length + 1, [], after.map .ok⟩⟩ := by
  induction before generalizing line count with
  | nil =>
      rw [List.nil_append, List.map_cons, skipLines, if_pos (beq_iff_eq.mpr (bears_iff.mp htext))]
      rfl
  | cons first before ih =>
      rcases List.forall_mem_cons.mp hbefore with ⟨hfirst, hbefore⟩
      rw [bears_iff] at hfirst
      rw [List.cons_append, List.map_cons, skipLines, if_neg (mt beq_iff_eq.mp hfirst),
        ih hbefore, List.length_cons]
      simp only [Nat.add_assoc, Nat.add_comm 1]

/-- If none bears the marker, all are passed over. -/
theorem skipLines_of_not_bears {lines : List String} (hlines : ∀ text ∈ lines, ¬Bears text marker)
    (line count : Nat) :
    skipLines marker line count (lines.map .ok)
      = ⟨.ok false, count + lines.length, ⟨line + lines.length, [], []⟩⟩ := by
  induction lines generalizing line count with
  | nil => rfl
  | cons first lines ih =>
      rcases List.forall_mem_cons.mp hlines with ⟨hfirst, hlines⟩
      rw [bears_iff] at hfirst
      rw [List.map_cons, skipLines, if_neg (mt beq_iff_eq.mp hfirst), ih hlines, List.length_cons]
      simp only [Nat.add_assoc, Nat.add_comm 1]

/-- Among lines there is a first that bears the marker, unless none does. -/
theorem first_bearing (marker : Option String) (lines : List String) :
    (∀ text ∈ lines, ¬Bears text marker) ∨
      ∃ before text after, lines = before ++ text :: after ∧
        (∀ earlier ∈ before, ¬Bears earlier marker) ∧ Bears text marker := by
  -- Searching finds the first, and it searches by what the code compares.
  cases hfind : lines.find? fun text => some (stripLineEnd text) == marker with
  | none =>
      left
      intro text htext hbears
      exact List.find?_eq_none.mp hfind text htext (beq_iff_eq.mpr (bears_iff.mp hbears))
  | some text =>
      right
      rcases List.find?_eq_some_iff_append.mp hfind with ⟨htext, before, after, hlines, hbefore⟩
      refine ⟨before, text, after, hlines, ?_, bears_iff.mpr (beq_iff_eq.mp htext)⟩
      intro earlier hearlier hbears
      have hother := hbefore earlier hearlier
      rw [beq_iff_eq.mpr (bears_iff.mp hbears)] at hother
      cases hother

/-- The marker is found if a line bears it. -/
theorem found_skipLines_iff {lines : List String} {line count : Nat} :
    (skipLines marker line count (lines.map .ok)).found = .ok true ↔
      ∃ text ∈ lines, Bears text marker := by
  rcases first_bearing marker lines with hnone | ⟨before, text, after, rfl, hbefore, htext⟩
  · rw [skipLines_of_not_bears hnone]
    constructor
    · intro h
      cases h
    · rintro ⟨text, hmem, hbears⟩
      exact absurd hbears (hnone text hmem)
  · rw [skipLines_of_bears hbefore htext]
    exact ⟨fun _ => ⟨text, by simp, htext⟩, fun _ => rfl⟩

/-- Passing over lines reads some of them, and leaves nothing pending. -/
theorem rest_skipTo_of_lines {t : Tokenizer} {lines : List String}
    (h : t.unread = lines.map .ok) (marker : Option String) :
    ∃ n ≤ lines.length,
      (t.skipTo marker).rest = ⟨t.line + n, [], (lines.drop n).map .ok⟩ := by
  rw [skipTo, h]
  rcases first_bearing marker lines with hnone | ⟨before, text, after, rfl, hbefore, htext⟩
  · refine ⟨lines.length, Nat.le_refl _, ?_⟩
    rw [skipLines_of_not_bears hnone, List.drop_length, List.map_nil]
  · refine ⟨before.length + 1, by simp, ?_⟩
    rw [skipLines_of_bears hbefore htext, List.drop_append, Nat.add_sub_cancel_left]
    simp [Nat.add_assoc]

end Markers

end Tokenizer

/-- What a tokenizer can be asked. -/
inductive Request where
  /-- The next lexeme. -/
  | next
  /-- Passing over lines up to a marker. -/
  | skipTo (marker : Option String)

/-- A request that was made, what came of it, and the number of lines read by then. -/
inductive Exchange where
  | next (found : Except DecodeError (Option String)) (line : Nat)
  | skipTo (marker : Option String) (found : Except DecodeError Bool) (line : Nat)

namespace Exchange

/-- The number of lines read by the end of an exchange. -/
def line : Exchange → Nat
  | .next _ line => line
  | .skipTo _ _ line => line

/-- Whether a lexeme was delivered. -/
def delivers : Exchange → Bool
  | .next (.ok (some _)) _ => true
  | _ => false

/-- Whether lines were passed over. -/
def passesOver : Exchange → Bool
  | .skipTo .. => true
  | .next .. => false

end Exchange

/-- A tokenizer, and what it was asked so far. -/
structure Session where
  /-- The exchanges, the last one first. -/
  log : List Exchange
  /-- The tokenizer as they left it. -/
  tokenizer : Tokenizer

/-- The lexemes of the line with a number. Lines are counted from one. -/
def lexemesOn (lines : List String) : Nat → List String
  | 0 => []
  | n + 1 => (lines[n]?.map lexemes).getD []

namespace Session

/-- Making a request. -/
def make (s : Session) : Request → Session
  | .next =>
      let reply := s.tokenizer.next
      ⟨.next reply.1 reply.2.line :: s.log, reply.2⟩
  | .skipTo marker =>
      let skipped := s.tokenizer.skipTo marker
      ⟨.skipTo marker skipped.found skipped.rest.line :: s.log, skipped.rest⟩

/-- A text, and requests made from its beginning. -/
def ofText (text : String) (requests : List Request) : Session :=
  requests.foldl make ⟨[], .ofText text⟩

/-- The exchanges that ended on the last line read. -/
def here (s : Session) : List Exchange := s.log.filter (·.line == s.tokenizer.line)

/-- The lexemes of the last line read that have not been delivered. There are none if
    lines have been passed over up to it. -/
def undelivered (lines : List String) (s : Session) : List String :=
  if s.here.any (·.passesOver) then []
  else (lexemesOn lines s.tokenizer.line).drop (s.here.countP (·.delivers))

/-- The lexemes that are left: those of the last line read that have not been delivered,
    and those of the lines after it. -/
def remaining (lines : List String) (s : Session) : List String :=
  s.undelivered lines ++ (lines.drop s.tokenizer.line).flatMap lexemes

/-- A tokenizer that has read as many lines as it says, and holds what is left of the
    last of them. -/
structure Faithful (lines : List String) (s : Session) : Prop where
  line_le : s.tokenizer.line ≤ lines.length
  unread : s.tokenizer.unread = (lines.drop s.tokenizer.line).map .ok
  pending : s.tokenizer.pending = s.undelivered lines
  logged : ∀ exchange ∈ s.log, exchange.line ≤ s.tokenizer.line

section

variable {lines : List String}

theorem faithful_start (text : String) : Faithful (linesOf text) ⟨[], .ofText text⟩ where
  line_le := Nat.zero_le _
  unread := by rw [Tokenizer.ofText_eq]; rfl
  pending := rfl
  logged := List.forall_mem_nil _

/-- All lexemes of a line are left if no exchange has ended on it. -/
theorem undelivered_of_fresh {s : Session}
    (h : ∀ exchange ∈ s.log, exchange.line < s.tokenizer.line) :
    s.undelivered lines = lexemesOn lines s.tokenizer.line := by
  have hhere : s.here = [] := by
    apply List.filter_eq_nil_iff.mpr
    intro exchange hmem
    have hlt := h exchange hmem
    simp only [beq_iff_eq]
    omega
  rw [undelivered, hhere]
  rfl

/-- An exchange on the last line read is one of those that ended there. -/
theorem here_cons {log : List Exchange} {t : Tokenizer} {exchange : Exchange}
    (h : exchange.line = t.line) :
    here ⟨exchange :: log, t⟩ = exchange :: here ⟨log, t⟩ := by
  simp only [here, List.filter_cons, h, beq_self_eq_true, if_true]

namespace Faithful

/-- Reading a line keeps a tokenizer faithful. -/
theorem readLine {log : List Exchange} {line : Nat} {text : String} {unread : List RawLine}
    (h : Faithful lines ⟨log, ⟨line, [], .ok text :: unread⟩⟩) :
    Faithful lines ⟨log, ⟨line + 1, lexemes text, unread⟩⟩ := by
  have hlines := h.unread
  cases hdrop : lines.drop line with
  | nil => simp [hdrop] at hlines
  | cons first rest =>
      simp only [hdrop, List.map_cons, List.cons.injEq, Except.ok.injEq] at hlines
      rcases hlines with ⟨rfl, hunread⟩
      have hget : lines[line]? = some text := by rw [← List.head?_drop, hdrop, List.head?_cons]
      refine ⟨?_, ?_, ?_, ?_⟩
      · exact (List.getElem?_eq_some_iff.mp hget).1
      · change unread = (lines.drop (line + 1)).map .ok
        rw [← List.tail_drop, hdrop, List.tail_cons, hunread]
      · -- No exchange has ended on a line that had not been read.
        have hfresh : ∀ exchange ∈ log, exchange.line < line + 1 :=
          fun exchange hmem => Nat.lt_succ_of_le (h.logged exchange hmem)
        rw [undelivered_of_fresh hfresh]
        change lexemes text = (lines[line]?.map lexemes).getD []
        rw [hget]
        rfl
      · exact fun exchange hmem => Nat.le_succ_of_le (h.logged exchange hmem)

/-- Delivering a pending lexeme. -/
theorem deliver {log : List Exchange} {line : Nat} {lexeme : String} {pending : List String}
    {unread : List RawLine} (h : Faithful lines ⟨log, ⟨line, lexeme :: pending, unread⟩⟩) :
    Faithful lines ⟨.next (.ok (some lexeme)) line :: log, ⟨line, pending, unread⟩⟩ := by
  have hpending : lexeme :: pending = undelivered lines ⟨log, ⟨line, pending, unread⟩⟩ := h.pending
  refine ⟨h.line_le, h.unread, ?_, List.forall_mem_cons.mpr ⟨Nat.le_refl _, h.logged⟩⟩
  change pending = _
  rw [undelivered] at hpending ⊢
  rw [here_cons rfl, List.any_cons, List.countP_cons_of_pos rfl]
  by_cases hpassed : (here ⟨log, ⟨line, pending, unread⟩⟩).any (·.passesOver) = true
  · -- Nothing would be pending if lines had been passed over.
    rw [if_pos hpassed] at hpending
    cases hpending
  · rw [if_neg hpassed] at hpending
    rw [Exchange.passesOver, Bool.false_or, if_neg hpassed, ← List.tail_drop, ← hpending,
      List.tail_cons]

/-- Finding no lexeme at the end of the text. -/
theorem atEnd {log : List Exchange} {line : Nat} (h : Faithful lines ⟨log, ⟨line, [], []⟩⟩) :
    Faithful lines ⟨.next (.ok none) line :: log, ⟨line, [], []⟩⟩ := by
  refine ⟨h.line_le, h.unread, ?_, List.forall_mem_cons.mpr ⟨Nat.le_refl _, h.logged⟩⟩
  rw [undelivered, here_cons rfl, List.any_cons, List.countP_cons_of_neg Bool.false_ne_true,
    Exchange.passesOver, Bool.false_or]
  exact h.pending

/-- Asking for a lexeme keeps a tokenizer faithful. -/
theorem next {s : Session} (h : s.Faithful lines) : (s.make .next).Faithful lines := by
  rcases s with ⟨log, line, pending, unread⟩
  -- By induction on the lines that may have to be read to find one.
  induction unread generalizing line pending with
  | nil =>
      cases pending with
      | nil => exact h.atEnd
      | cons lexeme pending => exact h.deliver
  | cons raw unread ih =>
      cases pending with
      | cons lexeme pending => exact h.deliver
      | nil =>
          have hmem : raw ∈ (lines.drop line).map .ok := by
            rw [← h.unread]
            exact List.mem_cons_self
          rcases List.mem_map.mp hmem with ⟨text, _, rfl⟩
          have hnext := ih (line + 1) (lexemes text) h.readLine
          rw [make, ← Tokenizer.next_readLine] at hnext
          exact hnext

/-- Passing over lines keeps a tokenizer faithful. -/
theorem skipTo {s : Session} (h : s.Faithful lines) (marker : Option String) :
    (s.make (.skipTo marker)).Faithful lines := by
  rcases Tokenizer.rest_skipTo_of_lines h.unread marker with ⟨n, hn, hrest⟩
  rw [List.length_drop] at hn
  have hline := h.line_le
  simp only [make, hrest]
  refine ⟨?_, ?_, ?_, ?_⟩
  · change s.tokenizer.line + n ≤ lines.length
    omega
  · rw [List.drop_drop]
  · -- The exchange itself is one that passes over lines.
    rw [undelivered, here_cons rfl, List.any_cons, Exchange.passesOver, Bool.true_or, if_pos rfl]
  · refine List.forall_mem_cons.mpr ⟨Nat.le_refl _, ?_⟩
    intro exchange hmem
    exact Nat.le_trans (h.logged exchange hmem) (Nat.le_add_right _ _)

/-- Every request keeps a tokenizer faithful. -/
theorem make {s : Session} (h : s.Faithful lines) (request : Request) :
    (s.make request).Faithful lines := by
  cases request with
  | next => exact h.next
  | skipTo marker => exact h.skipTo marker

/-- Any number of requests do. -/
theorem foldl {s : Session} (h : s.Faithful lines) (requests : List Request) :
    (requests.foldl Session.make s).Faithful lines := by
  induction requests generalizing s with
  | nil => exact h
  | cons request requests ih => exact ih (h.make request)

end Faithful

end

theorem faithful_ofText (text : String) (requests : List Request) :
    (ofText text requests).Faithful (linesOf text) :=
  (faithful_start text).foldl requests

end Session

/-- What is left of a text after any sequence of requests, and what the next request comes
    to. The tokenizer has read as many lines as it counts, where lines end with a line
    feed, and draining it would return the lexemes of the last line read that have not
    been delivered and then those of the lines after it. The next lexeme is the first of
    these, and leaves the others. It is found without reading a line if there is one left
    of the last line read, and otherwise by reading on to the first line that has one; if
    there is none, all lines are read. A marker is found just if a later line bears it,
    and then reading goes on after the first that does; otherwise all lines are read.
    From the beginning, draining returns the lexemes of the text as a whole. -/
theorem reading_is_faithful_and_lazy (text : String) (requests : List Request) :
    let lines := linesOf text
    let s := Session.ofText text requests
    let t := s.tokenizer
    let later := lines.drop t.line
    (CutAfterLineFeeds text lines ∧ t.line ≤ lines.length ∧ t.unread = later.map .ok ∧
      t.drain = (.ok (s.remaining lines), ⟨lines.length, [], []⟩)) ∧
    (t.next.1 = .ok (s.remaining lines).head? ∧
      t.next.2.drain = (.ok (s.remaining lines).tail, ⟨lines.length, [], []⟩) ∧
      (∀ lexeme left, s.undelivered lines = lexeme :: left →
        t.next.2 = ⟨t.line, left, t.unread⟩) ∧
      (∀ blank line after lexeme left, s.undelivered lines = [] →
        later = blank ++ line :: after → (∀ earlier ∈ blank, lexemes earlier = []) →
        lexemes line = lexeme :: left →
        t.next.2 = ⟨t.line + blank.length + 1, left, after.map .ok⟩) ∧
      (t.next.1 = .ok none ↔ s.remaining lines = []) ∧
      (s.remaining lines = [] → t.next.2 = ⟨lines.length, [], []⟩)) ∧
    (∀ marker,
      ((t.skipTo marker).found = .ok true ↔ ∃ line ∈ later, Bears line marker) ∧
      (∀ before line after, later = before ++ line :: after →
        (∀ earlier ∈ before, ¬Bears earlier marker) → Bears line marker →
        (t.skipTo marker).rest.line = t.line + before.length + 1 ∧
        (t.skipTo marker).rest.drain
          = (.ok (after.flatMap lexemes), ⟨lines.length, [], []⟩)) ∧
      ((∀ line ∈ later, ¬Bears line marker) →
        (t.skipTo marker).found = .ok false ∧
        (t.skipTo marker).rest = ⟨lines.length, [], []⟩)) ∧
    (Tokenizer.ofText text).drain.1 = .ok (textLexemes text) := by
  intro lines s t later
  have h : s.Faithful lines := Session.faithful_ofText text requests
  have hline : t.line ≤ lines.length := h.line_le
  have hunread : t.unread = later.map .ok := h.unread
  have hpending : t.pending = s.undelivered lines := h.pending
  have hremaining : s.remaining lines = t.pending ++ later.flatMap lexemes := by
    rw [Session.remaining, hpending]
  have hend : t.line + later.length = lines.length := by
    rw [List.length_drop]
    omega
  refine ⟨⟨cutAfterLineFeeds_linesOf text, hline, hunread, ?_⟩, ⟨?_, ?_, ?_, ?_, ?_, ?_⟩, ?_, ?_⟩
  · rw [hremaining, ← hend]
    exact Tokenizer.drain_of_unread hunread
  -- The next lexeme.
  · rw [hremaining]
    exact Tokenizer.next_of_unread hunread
  · rw [hremaining, ← hend]
    exact Tokenizer.drain_next_of_unread hunread
  · intro lexeme left hleft
    rw [Tokenizer.next_of_pending (hpending.trans hleft)]
  · intro blank line after lexeme left hnone hlater hblank hlexemes
    rw [hlater] at hunread
    rw [Tokenizer.next_of_blank hunread (hpending.trans hnone) hblank hlexemes]
  · rw [hremaining, Tokenizer.next_of_unread hunread, Except.ok.injEq, List.head?_eq_none_iff]
  · intro hnone
    rw [hremaining, List.append_eq_nil_iff, List.flatMap_eq_nil_iff] at hnone
    rw [Tokenizer.next_of_all_blank hunread hnone.1 hnone.2, hend]
  -- Passing over lines.
  · intro marker
    refine ⟨?_, ?_, ?_⟩
    · rw [Tokenizer.skipTo, hunread]
      exact Tokenizer.found_skipLines_iff
    · intro before line after hlater hbefore hbears
      rw [hlater] at hunread hend
      rw [Tokenizer.skipTo, hunread, Tokenizer.skipLines_of_bears hbefore hbears]
      refine ⟨rfl, ?_⟩
      rw [Tokenizer.drain_of_unread rfl, ← hend]
      simp [Nat.add_assoc, Nat.add_comm 1]
    · intro hnone
      rw [Tokenizer.skipTo, hunread, Tokenizer.skipLines_of_not_bears hnone, hend]
      exact ⟨rfl, rfl⟩
  -- The text from its beginning.
  · rw [Tokenizer.drain_of_unread (congrArg Tokenizer.unread (Tokenizer.ofText_eq text)),
      flatMap_lexemes_linesOf]
    rfl

/-- After one lexeme of a text, with another left on its line, lines are passed over up to
    a marker. A line that has the marker in a comment is not it. -/
theorem reading_is_faithful_and_lazy_past_marker :
    let text := "a b % c\r\n\n% mark\nmark\r\n/d e"
    let s := Session.ofText text [.next]
    (s.undelivered (linesOf text) = ["b"] ∧ s.tokenizer.line = 1) ∧
      (s.tokenizer.skipTo (some "mark")).found = .ok true ∧
      (s.tokenizer.skipTo (some "mark")).rest.line = 4 ∧
      (s.tokenizer.skipTo (some "mark")).rest.drain = (.ok ["/d", "e"], ⟨5, [], []⟩) := by
  intro text s
  have hstate : s.undelivered (linesOf text) = ["b"] ∧ s.tokenizer.line = 1 := by decide +kernel
  have hlater : (linesOf text).drop s.tokenizer.line
      = ["\n", "% mark\n"] ++ "mark\r\n" :: ["/d e"] := by decide +kernel
  have hbefore : ∀ earlier ∈ ["\n", "% mark\n"], ¬Bears earlier (some "mark") := by
    intro earlier hearlier
    rw [bears_iff]
    revert earlier
    decide +kernel
  have hbears : Bears "mark\r\n" (some "mark") := bears_iff.mpr (by decide +kernel)
  have hend : (linesOf text).length = 5 ∧ ["/d e"].flatMap lexemes = ["/d", "e"] := by
    decide +kernel
  rcases (reading_is_faithful_and_lazy text [.next]).2.2.1 (some "mark") with ⟨hfound, hfirst, _⟩
  rcases hfirst _ _ _ hlater hbefore hbears with ⟨hline, hdrain⟩
  refine ⟨hstate, hfound.mpr ⟨"mark\r\n", ?_, hbears⟩, ?_, ?_⟩
  · rw [hlater]
    exact List.mem_append_right _ List.mem_cons_self
  · rw [hline, hstate.2]
    rfl
  · rw [hdrain, hend.1, hend.2]

end PathScript
