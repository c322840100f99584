import PathScript.Proofs.LazyReading

/-!
# Places in a Text

Where in a text the answers of a tokenizer are.

A tokenizer counts lines as it reads them, and what it counts is a matter of how it
reads. A text has lexemes at places, by line and by position within a line, whether
anyone reads it or not. This module answers the requests that a tokenizer can be asked
from the places alone. The next lexeme is the first that lies after everything consumed
so far. Passing over lines consumes the lines up to the first that bears the marker,
among those after the furthest line that anything was consumed on. A request that cannot
be met consumes whatever is left.

The answers of a tokenizer agree with these, and so does its count of lines: it is the
number of the furthest line consumed. In other words, nothing is read ahead that would be
lost, or that would be counted too early.

## Main definitions

* `Placed`: A lexeme and its place in a text.
* `placed`: The lexemes of a text at their places.
* `Consumed`: What a request consumed.
* `leftAfter`, `furthest`: What lies after everything consumed, and how far that goes.
* `consumption`: What requests consume from the beginning of a text on.
* `lastLexemeLine`, `lastMarkerLine`: The lines of the last lexeme and of the last marker.
* `Session.Placing`: A session whose answers agree with these.
* `Session.Met`: A session all of whose requests have been met.

## Theorems

* `pairwise_placedFrom`: Lexemes are in the order of their places.
* `Tokenizer.next_of_placed`: Reading the next lexeme, in terms of places.
* `Session.Placing.make`: Requests are answered as the places have it.
* `Session.placing_ofText`: The same for any number of requests from the beginning of a
  text on.
* `Session.Placing.line_of_met`, `Session.Placing.line_of_not_met`: How far a tokenizer
  has come.
* `Session.Placing.drain`: What it would still deliver.
-/

namespace PathScript

/-- A lexeme and its place in a text: the number of its line, counted from one, and its
    position among the lexemes of the line, counted from zero. -/
structure Placed where
  line : Nat
  index : Nat
  text : String

/-- Whether a place lies after another. -/
def Placed.isAfter (p q : Placed) : Bool :=
  q.line < p.line || p.line == q.line && q.index < p.index

/-- The lexemes of a line with a number, at their places. -/
def placedOn (number : Nat) (line : String) : List Placed :=
  (lexemes line).mapIdx fun index text => ⟨number, index, text⟩

/-- The lexemes of lines that come after a number of others, at their places. -/
def placedFrom (number : Nat) : List String → List Placed
  | [] => []
  | line :: lines => placedOn (number + 1) line ++ placedFrom (number + 1) lines

/-- The lexemes of a text at their places. -/
def placed (lines : List String) : List Placed := placedFrom 0 lines

/-- What a request consumed. -/
inductive Consumed where
  /-- A lexeme. -/
  | lexeme (place : Placed)
  /-- The lines up to the one with a number, which bears the marker. -/
  | marker (wanted : Option String) (line : Nat)
  /-- The lines to the end, of which there is this number, by a request that was not
      met. -/
  | everything (request : Request) (line : Nat)

namespace Consumed

/-- The number of the last line of which something was consumed. -/
def line : Consumed → Nat
  | .lexeme place => place.line
  | .marker _ line => line
  | .everything _ line => line

/-- Whether a place lies after what was consumed. -/
def precedes : Consumed → Placed → Bool
  | .lexeme place, p => p.isAfter place
  | c, p => c.line < p.line

/-- Whether the request was met. -/
def isFound : Consumed → Bool
  | .everything _ _ => false
  | _ => true

/-- The line of a lexeme. -/
def lexemeLine? : Consumed → Option Nat
  | .lexeme place => some place.line
  | _ => none

/-- The line of a marker. -/
def markerLine? : Consumed → Option Nat
  | .marker _ line => some line
  | _ => none

/-- The exchange with a tokenizer in which this is consumed. -/
def exchange : Consumed → Exchange
  | .lexeme place => .next (.ok (some place.text)) place.line
  | .marker wanted line => .skipTo wanted (.ok true) line
  | .everything .next line => .next (.ok none) line
  | .everything (.skipTo wanted) line => .skipTo wanted (.ok false) line

end Consumed

/-- The lexemes that lie after everything consumed. -/
def leftAfter (lines : List String) (history : List Consumed) : List Placed :=
  (placed lines).filter fun p => history.all (·.precedes p)

/-- The number of the furthest line of which something was consumed. -/
def furthest (history : List Consumed) : Nat := history.foldl (fun n c => max n c.line) 0

/-- The line of the last lexeme consumed; zero if there is none. -/
def lastLexemeLine (history : List Consumed) : Nat :=
  (history.filterMap Consumed.lexemeLine?).getLast?.getD 0

/-- The line of the last marker consumed; zero if there is none. -/
def lastMarkerLine (history : List Consumed) : Nat :=
  (history.filterMap Consumed.markerLine?).getLast?.getD 0

instance (line : String) (marker : Option String) : Decidable (Bears line marker) :=
  decidable_of_iff _ bears_iff.symm

/-- What a request consumes when there is a history. -/
def consume (lines : List String) (history : List Consumed) : Request → Consumed
  | .next =>
      match leftAfter lines history with
      | p :: _ => .lexeme p
      | [] => .everything .next lines.length
  | .skipTo marker =>
      match (lines.drop (furthest history)).findIdx? (Bears · marker) with
      | some before => .marker marker (furthest history + before + 1)
      | none => .everything (.skipTo marker) lines.length

/-- What requests consume from the beginning of a text on. -/
def consumption (lines : List String) (requests : List Request) : List Consumed :=
  requests.foldl (fun history request => history ++ [consume lines history request]) []

section Places

theorem map_text_placedOn (number : Nat) (line : String) :
    (placedOn number line).map (·.text) = lexemes line := by
  rw [placedOn]
  exact List.ext_getElem (by simp) (by simp)

theorem line_of_placedOn {number : Nat} {line : String} {p : Placed}
    (h : p ∈ placedOn number line) : p.line = number := by
  rcases List.mem_mapIdx.mp h with ⟨index, hindex, rfl⟩
  rfl

theorem map_text_placedFrom (number : Nat) (lines : List String) :
    (placedFrom number lines).map (·.text) = lines.flatMap lexemes := by
  induction lines generalizing number with
  | nil => rfl
  | cons line lines ih =>
      rw [placedFrom, List.map_append, map_text_placedOn, ih, List.flatMap_cons]

theorem line_of_placedFrom {number : Nat} {lines : List String} {p : Placed}
    (h : p ∈ placedFrom number lines) : number < p.line ∧ p.line ≤ number + lines.length := by
  induction lines generalizing number with
  | nil => cases h
  | cons line lines ih =>
      rw [List.length_cons]
      rcases List.mem_append.mp h with h | h
      · have hline := line_of_placedOn h
        omega
      · have hline := ih h
        omega

/-- Lexemes are in the order of their places. -/
theorem pairwise_placedFrom (number : Nat) (lines : List String) :
    (placedFrom number lines).Pairwise fun p q => q.isAfter p = true := by
  induction lines generalizing number with
  | nil => exact List.Pairwise.nil
  | cons line lines ih =>
      refine List.pairwise_append.mpr ⟨?_, ih (number + 1), ?_⟩
      · -- On one line the positions are those in the list.
        rw [placedOn, List.pairwise_iff_getElem]
        intro i j hi hj hij
        simp [Placed.isAfter, hij]
      · intro p hp q hq
        have hline := line_of_placedOn hp
        have hlater := line_of_placedFrom hq
        simp only [Placed.isAfter, Bool.or_eq_true, decide_eq_true_eq]
        omega

/-- The lexemes after a line are those of the lines after it. -/
theorem filter_placedFrom (number count : Nat) (lines : List String) :
    (placedFrom number lines).filter (fun p => number + count < p.line)
      = placedFrom (number + count) (lines.drop count) := by
  induction lines generalizing number count with
  | nil => rw [List.drop_nil]; rfl
  | cons line lines ih =>
      rw [placedFrom, List.filter_append]
      cases count with
      | zero =>
          have hall : ∀ p ∈ placedFrom number (line :: lines), number < p.line :=
            fun p hp => (line_of_placedFrom hp).1
          rw [← List.filter_append, Nat.add_zero, List.drop_zero]
          exact List.filter_eq_self.mpr fun p hp => decide_eq_true (hall p hp)
      | succ count =>
          -- The first line is one of those left out.
          have hnone : ∀ p ∈ placedOn (number + 1) line, ¬number + (count + 1) < p.line := by
            intro p hp
            have hline := line_of_placedOn hp
            omega
          rw [List.filter_eq_nil_iff.mpr (by simpa using hnone), List.nil_append, List.drop_succ_cons,
            ← Nat.add_assoc, Nat.add_right_comm, ih]

/-- The first lexeme is on the first line that has one. -/
theorem placedFrom_eq_cons {number : Nat} {lines : List String} {p : Placed} {rest : List Placed}
    (h : placedFrom number lines = p :: rest) :
    ∃ blank line after left, lines = blank ++ line :: after ∧
      (∀ earlier ∈ blank, lexemes earlier = []) ∧
      placedOn (number + blank.length + 1) line = p :: left ∧
      rest = left ++ placedFrom (number + blank.length + 1) after := by
  induction lines generalizing number with
  | nil => cases h
  | cons line lines ih =>
      rw [placedFrom] at h
      cases hline : placedOn (number + 1) line with
      | nil =>
          have hblank : lexemes line = [] := by
            rw [← map_text_placedOn (number + 1), hline, List.map_nil]
          rw [hline, List.nil_append] at h
          rcases ih h with ⟨blank, other, after, left, rfl, hearlier, hplaced, hrest⟩
          refine ⟨line :: blank, other, after, left, rfl,
            List.forall_mem_cons.mpr ⟨hblank, hearlier⟩, ?_⟩
          rw [List.length_cons, ← Nat.add_assoc, Nat.add_right_comm number]
          exact ⟨hplaced, hrest⟩
      | cons first left =>
          -- This line has a lexeme, and none is passed over.
          rw [hline] at h
          rcases List.cons.inj h with ⟨rfl, rfl⟩
          exact ⟨[], line, lines, left, rfl, List.forall_mem_nil _, hline, rfl⟩

end Places

section Histories

variable {lines : List String} {history : List Consumed} {c : Consumed}

theorem leftAfter_concat :
    leftAfter lines (history ++ [c]) = (leftAfter lines history).filter c.precedes := by
  rw [leftAfter, leftAfter, List.filter_filter]
  congr 1
  funext p
  rw [List.all_append, List.all_cons, List.all_nil, Bool.and_true, Bool.and_comm]

theorem line_le_furthest (h : c ∈ history) : c.line ≤ furthest history := by
  have hfold : ∀ (history : List Consumed) (n : Nat),
      n ≤ history.foldl (fun n c => max n c.line) n ∧
        ∀ c ∈ history, c.line ≤ history.foldl (fun n c => max n c.line) n := by
    intro history
    induction history with
    | nil => exact fun n => ⟨Nat.le_refl n, List.forall_mem_nil _⟩
    | cons first history ih =>
        intro n
        rcases ih (max n first.line) with ⟨hstart, hothers⟩
        exact ⟨Nat.le_trans (Nat.le_max_left _ _) hstart,
          List.forall_mem_cons.mpr ⟨Nat.le_trans (Nat.le_max_right _ _) hstart, hothers⟩⟩
  exact (hfold history 0).2 c h

theorem furthest_concat : furthest (history ++ [c]) = max (furthest history) c.line := by
  rw [furthest, List.foldl_append]
  rfl

/-- What is left is in the order of its places. -/
theorem pairwise_leftAfter (lines : List String) (history : List Consumed) :
    (leftAfter lines history).Pairwise fun p q => q.isAfter p = true :=
  (pairwise_placedFrom 0 lines).filter _

/-- Consuming the first lexeme that is left leaves the others. -/
theorem leftAfter_lexeme {p : Placed} {rest : List Placed} (h : leftAfter lines history = p :: rest) :
    leftAfter lines (history ++ [.lexeme p]) = rest := by
  have horder := pairwise_leftAfter lines history
  rw [h] at horder
  have hself : (Consumed.lexeme p).precedes p = false := by
    simp [Consumed.precedes, Placed.isAfter]
  rw [leftAfter_concat, h, List.filter_cons_of_neg (by simp [hself])]
  exact List.filter_eq_self.mpr (List.pairwise_cons.mp horder).1

/-- Something consumed that is not before anything else. -/
theorem max_of_found_concat
    (h : (∀ c ∈ history, c.isFound = true) →
      max (lastLexemeLine history) (lastMarkerLine history) = furthest history)
    (hc : furthest history ≤ c.line) (hfound : ∀ d ∈ history ++ [c], d.isFound = true) :
    max (lastLexemeLine (history ++ [c])) (lastMarkerLine (history ++ [c]))
      = furthest (history ++ [c]) := by
  have hbefore := h fun d hd => hfound d (List.mem_append_left _ hd)
  rw [furthest_concat, Nat.max_eq_right hc]
  -- The last line of one kind is replaced, and the other is not beyond it.
  cases c with
  | lexeme place =>
      have hlexeme : lastLexemeLine (history ++ [.lexeme place]) = place.line := by
        simp [lastLexemeLine, Consumed.lexemeLine?]
      have hmarker : lastMarkerLine (history ++ [.lexeme place]) = lastMarkerLine history := by
        simp [lastMarkerLine, Consumed.markerLine?]
      simp only [Consumed.line] at hc ⊢
      omega
  | marker wanted line =>
      have hlexeme : lastLexemeLine (history ++ [.marker wanted line]) = lastLexemeLine history := by
        simp [lastLexemeLine, Consumed.lexemeLine?]
      have hmarker : lastMarkerLine (history ++ [.marker wanted line]) = line := by
        simp [lastMarkerLine, Consumed.markerLine?]
      simp only [Consumed.line] at hc ⊢
      omega
  | everything request line =>
      cases hfound _ (List.mem_append_right _ (List.mem_singleton_self _))

end Histories

namespace Tokenizer

variable {t : Tokenizer} {pending : List Placed} {later : List String}

/-- If no lexeme is left, all lines are read. -/
theorem next_of_nothing_placed (hpending : pending.map (·.text) = t.pending)
    (hunread : t.unread = later.map .ok) (h : pending ++ placedFrom t.line later = []) :
    t.next = (.ok none, ⟨t.line + later.length, [], []⟩) := by
  rcases List.append_eq_nil_iff.mp h with ⟨hnone, hlater⟩
  have hblank : later.flatMap lexemes = [] := by
    rw [← map_text_placedFrom t.line, hlater, List.map_nil]
  apply next_of_all_blank hunread
  · rw [← hpending, hnone, List.map_nil]
  · exact List.flatMap_eq_nil_iff.mp hblank

/-- The first lexeme that is left is delivered. The line that it is on is then the last
    one read, and the others are left. -/
theorem next_of_placed (hpending : pending.map (·.text) = t.pending)
    (hline : ∀ p ∈ pending, p.line = t.line) (hunread : t.unread = later.map .ok)
    {p : Placed} {rest : List Placed} (h : pending ++ placedFrom t.line later = p :: rest) :
    ∃ count left, t.line + count = p.line ∧ (∀ q ∈ left, q.line = p.line) ∧
      rest = left ++ placedFrom p.line (later.drop count) ∧
      t.next = (.ok (some p.text),
        ⟨p.line, left.map (·.text), (later.drop count).map .ok⟩) := by
  -- The lexeme is on the line at hand, or blank lines are read on the way to its line.
  cases pending with
  | cons first pending =>
      rcases List.cons.inj h with ⟨rfl, rfl⟩
      rcases List.forall_mem_cons.mp hline with ⟨hfirst, hothers⟩
      rw [hfirst]
      refine ⟨0, pending, rfl, hothers, rfl, ?_⟩
      rw [next_of_pending hpending.symm, hunread]
      rfl
  | nil =>
      rcases placedFrom_eq_cons h with ⟨blank, line, after, left, rfl, hblank, hplaced, hrest⟩
      have hplace : ∀ q ∈ p :: left, q.line = t.line + blank.length + 1 := by
        intro q hq
        rw [← hplaced] at hq
        exact line_of_placedOn hq
      rcases List.forall_mem_cons.mp hplace with ⟨hp, hleft⟩
      have htexts : lexemes line = p.text :: left.map (·.text) := by
        rw [← map_text_placedOn (t.line + blank.length + 1), hplaced, List.map_cons]
      have hdrop : (blank ++ line :: after).drop (blank.length + 1) = after := by
        rw [List.drop_append, List.drop_of_length_le (Nat.le_succ _)]
        simp
      refine ⟨blank.length + 1, left, hp.symm, ?_, ?_, ?_⟩
      · rw [hp]
        exact hleft
      · rw [hdrop, hp]
        exact hrest
      · rw [hdrop, hp]
        exact next_of_blank hunread hpending.symm hblank htexts

end Tokenizer

/-- Whether a request was met. -/
def Exchange.isMet : Exchange → Bool
  | .next (.ok (some _)) _ => true
  | .skipTo _ (.ok true) _ => true
  | _ => false

theorem Consumed.isMet_exchange (c : Consumed) : c.exchange.isMet = c.isFound := by
  cases c with
  | lexeme place | marker wanted line => rfl
  | everything request line => cases request <;> rfl

/-- A session all of whose requests have been met. -/
def Session.Met (s : Session) : Prop := ∀ exchange ∈ s.log, exchange.isMet = true

/-- A session whose requests have been answered as the places in a text have it: the log
    is that of what was consumed, the last line read is the furthest line consumed, and
    the tokenizer has what lies after everything consumed. -/
structure Session.Placing (lines : List String) (history : List Consumed) (s : Session) :
    Prop where
  log : s.log.reverse = history.map Consumed.exchange
  line : s.tokenizer.line = furthest history
  left : ∃ pending : List Placed, pending.map (·.text) = s.tokenizer.pending ∧
    (∀ p ∈ pending, p.line = s.tokenizer.line) ∧
    leftAfter lines history
      = pending ++ placedFrom s.tokenizer.line (lines.drop s.tokenizer.line)
  found : (∀ c ∈ history, c.isFound = true) →
    max (lastLexemeLine history) (lastMarkerLine history) = furthest history
  notFound : ∀ c ∈ history, c.isFound = false → c.line = lines.length

namespace Session

variable {lines : List String} {history : List Consumed} {s : Session}

theorem placing_start (text : String) :
    Placing (linesOf text) [] ⟨[], .ofText text⟩ where
  log := rfl
  line := rfl
  left := ⟨[], rfl, List.forall_mem_nil _, List.filter_eq_self.mpr fun _ _ => rfl⟩
  found := fun _ => rfl
  notFound := List.forall_mem_nil _

namespace Placing

/-- A request that has been answered keeps to the places. -/
theorem concat (h : s.Placing lines history) {c : Consumed} {t : Tokenizer}
    {exchange : Exchange} (hexchange : exchange = c.exchange) (hline : t.line = c.line)
    (hle : s.tokenizer.line ≤ t.line)
    (hleft : ∃ pending : List Placed, pending.map (·.text) = t.pending ∧
      (∀ p ∈ pending, p.line = t.line) ∧
      leftAfter lines (history ++ [c]) = pending ++ placedFrom t.line (lines.drop t.line))
    (hnotFound : c.isFound = false → c.line = lines.length) :
    Placing lines (history ++ [c]) ⟨exchange :: s.log, t⟩ := by
  have hfurthest : furthest history ≤ c.line := by
    rw [← h.line, ← hline]
    exact hle
  refine ⟨?_, ?_, hleft, fun hfound => max_of_found_concat h.found hfurthest hfound, ?_⟩
  · rw [List.reverse_cons, h.log, hexchange, List.map_append, List.map_cons, List.map_nil]
  · change t.line = _
    rw [furthest_concat, Nat.max_eq_right hfurthest, hline]
  · intro d hd hnone
    rcases List.mem_append.mp hd with hd | hd
    · exact h.notFound d hd hnone
    · rw [List.mem_singleton.mp hd] at hnone ⊢
      exact hnotFound hnone

/-- Lines that are passed over take the lexemes on them along. -/
theorem leftAfter_lines (h : s.Placing lines history) {c : Consumed} {count : Nat}
    (hc : ∀ p, c.precedes p = decide (s.tokenizer.line + count < p.line)) :
    leftAfter lines (history ++ [c])
      = placedFrom (s.tokenizer.line + count) (lines.drop (s.tokenizer.line + count)) := by
  rcases h.left with ⟨pending, _, hpending, hleft⟩
  -- What is left of the line at hand is not beyond it.
  have hnone : ∀ p ∈ pending, ¬c.precedes p = true := by
    intro p hp
    have hline := hpending p hp
    rw [hc, decide_eq_true_eq]
    omega
  rw [leftAfter_concat, hleft, List.filter_append, List.filter_eq_nil_iff.mpr hnone,
    List.nil_append, ← List.drop_drop, ← filter_placedFrom]
  exact List.filter_congr fun p _ => hc p

/-- Asking for a lexeme. -/
theorem next (h : s.Placing lines history) (hfaithful : s.Faithful lines) :
    (s.make .next).Placing lines (history ++ [consume lines history .next]) := by
  rcases h.left with ⟨pending, htexts, hpending, hleft⟩
  rw [consume, make]
  cases hremaining : leftAfter lines history with
  | nil =>
      -- The lines that are left are blank, and all of them are read.
      have hend : s.tokenizer.line + (lines.drop s.tokenizer.line).length = lines.length := by
        rw [List.length_drop, Nat.add_sub_cancel' hfaithful.line_le]
      have hnext := Tokenizer.next_of_nothing_placed htexts hfaithful.unread
        (hleft.symm.trans hremaining)
      rw [hend] at hnext
      simp only [hnext]
      refine h.concat rfl rfl hfaithful.line_le ⟨[], rfl, List.forall_mem_nil _, ?_⟩ fun _ => rfl
      rw [leftAfter_concat, hremaining, List.drop_length]
      rfl
  | cons p rest =>
      rcases Tokenizer.next_of_placed htexts hpending hfaithful.unread
        (hleft.symm.trans hremaining) with ⟨count, left, hline, hplaces, hrest, hnext⟩
      simp only [hnext]
      refine h.concat rfl rfl ?_ ⟨left, rfl, hplaces, ?_⟩
        fun hfound => by cases hfound
      · change s.tokenizer.line ≤ p.line
        omega
      · rw [leftAfter_lexeme hremaining, hrest, List.drop_drop, hline]

/-- Passing over lines. -/
theorem skipTo (h : s.Placing lines history) (hfaithful : s.Faithful lines)
    (marker : Option String) :
    (s.make (.skipTo marker)).Placing lines
      (history ++ [consume lines history (.skipTo marker)]) := by
  have hend : s.tokenizer.line + (lines.drop s.tokenizer.line).length = lines.length := by
    rw [List.length_drop, Nat.add_sub_cancel' hfaithful.line_le]
  rw [consume, make, ← h.line]
  simp only [Tokenizer.skipTo, hfaithful.unread]
  rcases Tokenizer.first_bearing marker (lines.drop s.tokenizer.line) with
    hnone | ⟨before, line, after, hlater, hbefore, hbears⟩
  · have hfind : (lines.drop s.tokenizer.line).findIdx? (Bears · marker) = none :=
      List.findIdx?_eq_none_iff.mpr fun line hline => decide_eq_false (hnone line hline)
    rw [Tokenizer.skipLines_of_not_bears hnone, hfind, hend]
    refine h.concat rfl rfl hfaithful.line_le ⟨[], rfl, List.forall_mem_nil _, ?_⟩ fun _ => rfl
    have hcount : ∀ p, (Consumed.everything (.skipTo marker) lines.length).precedes p
        = decide (s.tokenizer.line + (lines.drop s.tokenizer.line).length < p.line) := by
      intro p
      rw [hend]
      rfl
    rw [h.leftAfter_lines hcount, hend]
    rfl
  · have hfind : (before ++ line :: after).findIdx? (Bears · marker) = some before.length := by
      rw [List.findIdx?_append,
        List.findIdx?_eq_none_iff.mpr fun line hline => decide_eq_false (hbefore line hline)]
      simp [List.findIdx?_cons, hbears]
    rw [hlater, Tokenizer.skipLines_of_bears hbefore hbears, hfind]
    refine h.concat rfl rfl ?_ ⟨[], rfl, List.forall_mem_nil _, ?_⟩ fun hfound => by cases hfound
    · change s.tokenizer.line ≤ s.tokenizer.line + before.length + 1
      omega
    · have hcount : ∀ p, (Consumed.marker marker (s.tokenizer.line + before.length + 1)).precedes p
          = decide (s.tokenizer.line + (before.length + 1) < p.line) := fun _ => rfl
      exact h.leftAfter_lines hcount

/-- A request is answered as the places have it. -/
theorem make (h : s.Placing lines history) (hfaithful : s.Faithful lines) (request : Request) :
    (s.make request).Placing lines (history ++ [consume lines history request]) := by
  cases request with
  | next => exact h.next hfaithful
  | skipTo marker => exact h.skipTo hfaithful marker

/-- Any number of requests are. -/
theorem foldl (h : s.Placing lines history) (hfaithful : s.Faithful lines)
    (requests : List Request) :
    (requests.foldl Session.make s).Placing lines
      (requests.foldl (fun history request => history ++ [consume lines history request])
        history) := by
  induction requests generalizing s history with
  | nil => exact h
  | cons request requests ih => exact ih (h.make hfaithful request) (hfaithful.make request)

end Placing

theorem placing_ofText (text : String) (requests : List Request) :
    (ofText text requests).Placing (linesOf text) (consumption (linesOf text) requests) :=
  (placing_start text).foldl (faithful_start text) requests

/-- Draining the tokenizer would return what lies after everything consumed. -/
theorem Placing.drain (h : s.Placing lines history) (hfaithful : s.Faithful lines) :
    s.tokenizer.drain.1 = .ok ((leftAfter lines history).map (·.text)) := by
  rcases h.left with ⟨pending, htexts, _, hleft⟩
  rw [Tokenizer.drain_of_unread hfaithful.unread, hleft, List.map_append, htexts,
    map_text_placedFrom]

theorem Placing.met_iff (h : s.Placing lines history) :
    s.Met ↔ ∀ c ∈ history, c.isFound = true := by
  have hlog : s.Met ↔ ∀ exchange ∈ history.map Consumed.exchange, exchange.isMet = true := by
    rw [← h.log]
    simp only [Met, List.mem_reverse]
  rw [hlog, List.forall_mem_map]
  simp only [Consumed.isMet_exchange]

/-- As long as requests are met, the last line read is that of the last lexeme or that of
    the last marker, whichever is larger. -/
theorem Placing.line_of_met (h : s.Placing lines history) (hmet : s.Met) :
    s.tokenizer.line = max (lastLexemeLine history) (lastMarkerLine history) := by
  rw [h.found (h.met_iff.mp hmet), h.line]

/-- Once a request has not been met, all lines are read. -/
theorem Placing.line_of_not_met (h : s.Placing lines history) (hfaithful : s.Faithful lines)
    (hmet : ¬s.Met) : s.tokenizer.line = lines.length := by
  rw [h.met_iff] at hmet
  have hunmet : ∃ c ∈ history, c.isFound = false := by
    simpa using hmet
  rcases hunmet with ⟨c, hc, hnone⟩
  -- That request consumed the lines to the end, and nothing is further.
  have hline := line_le_furthest hc
  rw [h.notFound c hc hnone, ← h.line] at hline
  exact Nat.le_antisymm hfaithful.line_le hline

end Session

end PathScript
