import PathScript.Import
import PathScript.Proofs.CapturedCode
import PathScript.Proofs.Placement
import PathScript.Proofs.ReadingText

/-!
# Lines of Errors

A report says which line it is about. That is the line that the tokenizer had come to
when the fault occurred, and this module says which line of the text that is.

Most of what a program does leaves the source alone. A step asks the tokenizer for
something if it reads the source on, and then for one lexeme, or, if that begins a
procedure, for all lexemes up to the closing brace; or if it passes over font
definitions. So what a program asks of its source is a list of requests, and the
tokenizer that the machine holds is what these requests make of the text.

All requests but the last are met. One that is not met finds the end of the text, and
then the program ends, fails for want of a closing brace, or fails for want of a marker.
These two reports give the number of lines there are. In all others the requests have
been met, so the line is that of the last lexeme or that of the last marker.

## Main definitions

* `Report.IsAtEnd`: A report for want of a closing brace or a marker.
* `Task.requests`, `Process.requests`: What a task or a step asks of the source.
* `Process.requestsIn`: What a number of steps ask of it.
* `Session.Amounts`: What capturing a body comes to as a matter of requests.
* `Run.StaysAt`: A run that leaves the source alone.
* `Run.Follows`, `Process.Follows`: A run and a process whose source is what requests
  made of it.

## Theorems

* `Session.amounts_capture`: The requests for a body.
* `Machine.staysAt_beginLexeme`, `Machine.staysAt_beginValue`: What leaves the source
  alone.
* `Task.follows_perform`: What each task asks of the source, and what it reports.
* `Process.follows_step`, `follows_after`: The same for steps.
* `errors_name_their_line`: The line of a report, and what is left of the text.
-/

namespace PathScript

/-- A report for want of a closing brace, or for want of the marker that ends font
    definitions. -/
def Report.IsAtEnd (r : Report) : Prop :=
  r.kind = .lexical ∧ (r.command = some openBrace ∨ r.command = some Operator.findfont.name)

namespace Tokenizer

/-- How many lexemes are asked for in order to capture a body: those of the body and the
    brace that closes it. If none does, all that are left, and one more. -/
def askedFor (t : Tokenizer) : Except CaptureError (List String) → Nat
  | .ok body => body.length + 1
  | .error _ => (t.drain.1.toOption.getD []).length + 1

/-- The requests for a body. -/
def captureRequests (t : Tokenizer) : List Request :=
  List.replicate (t.askedFor (t.capture 0).1) .next

theorem Readable.exists_lines {t : Tokenizer} (h : t.Readable) :
    ∃ lines : List String, t.unread = lines.map .ok := by
  rcases t with ⟨line, pending, unread⟩
  induction unread with
  | nil => exact ⟨[], rfl⟩
  | cons raw unread ih =>
      rcases List.forall_mem_cons.mp h with ⟨⟨text, rfl⟩, hrest⟩
      rcases ih hrest with ⟨lines, hlines⟩
      exact ⟨text :: lines, congrArg (Except.ok text :: ·) hlines⟩

/-- A lexeme that is kept is one more that is asked for. -/
theorem askedFor_of_lexeme {t rest : Tokenizer} (ht : rest.Readable) {lexeme : String}
    (h : t.next = (.ok (some lexeme), rest)) (found : Except CaptureError (List String)) :
    t.askedFor (found.map (lexeme :: ·)) = rest.askedFor found + 1 := by
  cases found with
  | ok body => rfl
  | error e =>
      rcases ht.exists_lines with ⟨lines, hlines⟩
      change (t.drain.1.toOption.getD []).length + 1 = (rest.drain.1.toOption.getD []).length + 1 + 1
      rw [drain_of_lexeme h, drain_of_unread hlines]
      rfl

end Tokenizer

namespace Session

theorem met_cons {log : List Exchange} {exchange : Exchange} {t rest : Tokenizer}
    (hexchange : exchange.isMet = true) (h : Met ⟨log, t⟩) : Met ⟨exchange :: log, rest⟩ :=
  List.forall_mem_cons.mpr ⟨hexchange, h⟩

theorem not_met_cons {log : List Exchange} {exchange : Exchange} {t : Tokenizer}
    (hexchange : exchange.isMet = false) : ¬Met ⟨exchange :: log, t⟩ := by
  intro h
  rw [h exchange List.mem_cons_self] at hexchange
  cases hexchange

theorem make_next {log : List Exchange} {t rest : Tokenizer}
    {found : Except DecodeError (Option String)} (h : t.next = (found, rest)) :
    make ⟨log, t⟩ .next = ⟨.next found rest.line :: log, rest⟩ := by
  rw [make, h]

/-- What capturing a body came to is what comes of the requests for it: they lead to the
    same place, and they are met if the body is closed. -/
def Amounts (t : Tokenizer) (found : Except Tokenizer.CaptureError (List String) × Tokenizer) :
    Prop :=
  ∀ log, Met ⟨log, t⟩ →
    let s := (List.replicate (t.askedFor found.1) Request.next).foldl make ⟨log, t⟩
    s.tokenizer = found.2 ∧ (s.Met ↔ ∃ body, found.1 = .ok body)

/-- A lexeme that is kept changes neither where capturing ends nor whether it succeeds. -/
theorem Amounts.keep {t rest : Tokenizer} {lexeme : String}
    {found : Except Tokenizer.CaptureError (List String) × Tokenizer} (h : Amounts rest found)
    (hrest : rest.Readable) (hnext : t.next = (.ok (some lexeme), rest)) :
    Amounts t (found.1.map (lexeme :: ·), found.2) := by
  intro log hmet
  have hclosed : (∃ body, found.1.map (lexeme :: ·) = .ok body) ↔ ∃ body, found.1 = .ok body := by
    cases found.1 with
    | error e =>
        constructor
        · rintro ⟨_, h⟩
          cases h
        · rintro ⟨_, h⟩
          cases h
    | ok body => exact ⟨fun _ => ⟨body, rfl⟩, fun _ => ⟨lexeme :: body, rfl⟩⟩
  simp only [hclosed, Tokenizer.askedFor_of_lexeme hrest hnext, List.replicate_succ,
    List.foldl_cons, make_next hnext]
  exact h _ (met_cons rfl hmet)

/-- Capturing a body comes to the requests for it. -/
theorem amounts_capture {inner : Nat} {t : Tokenizer} (ht : t.Readable) :
    Amounts t (t.capture inner) := by
  fun_induction Tokenizer.capture inner t with
  | case1 inner t e rest h =>
      -- Lines that can be read do not fail to decode.
      rcases (Tokenizer.readable_next ht).1 with ⟨found, hfound⟩
      rw [h] at hfound
      cases hfound
  | case2 inner t rest h =>
      -- At the end of the source one more lexeme is asked for, in vain.
      intro log hmet
      simp only [Tokenizer.askedFor, Tokenizer.drain_of_none h]
      change (make ⟨log, t⟩ .next).tokenizer = rest ∧ ((make ⟨log, t⟩ .next).Met ↔ _)
      rw [make_next h]
      refine ⟨rfl, fun hmet => absurd hmet (not_met_cons rfl), ?_⟩
      rintro ⟨_, hclosed⟩
      cases hclosed
  | case3 inner t rest found h hlt ih =>
      have hrest := Tokenizer.readable_of_next_eq ht h
      exact (ih hrest).keep hrest h
  | case4 t rest h hlt hopen =>
      -- The brace that closes the body is asked for and not kept.
      intro log hmet
      change (make ⟨log, t⟩ .next).tokenizer = rest ∧ ((make ⟨log, t⟩ .next).Met ↔ _)
      rw [make_next h]
      exact ⟨rfl, fun _ => ⟨[], rfl⟩, fun _ => met_cons rfl hmet⟩
  | case5 t rest outer found h hlt hopen ih =>
      have hrest := Tokenizer.readable_of_next_eq ht h
      exact (ih hrest).keep hrest h
  | case6 inner t lexeme rest h hlt hopen hclose found ih =>
      have hrest := Tokenizer.readable_of_next_eq ht h
      exact (ih hrest).keep hrest h

end Session

/-- What doing a task asks of the source. Reading the source on asks for a lexeme, and for
    a body if that begins one. Font definitions are passed over if there is the name of a
    font. -/
def Task.requests (m : Machine) : Task → List Request
  | .run .input =>
      match m.input with
      | none => []
      | some t =>
          match t.next with
          | (.ok (some lexeme), rest) =>
              .next :: if Machine.beginsProcedure lexeme then rest.captureRequests else []
          | _ => [.next]
  | .execute (.operator .findfont) _ =>
      if m.operands.isEmpty then [] else [.skipTo m.settings.prologMarker]
  | _ => []

/-- A run from a machine that leaves the source alone. What it reports is about the line
    that the source is at, and not about its end. -/
structure Run.StaysAt (m : Machine) (r : Run) : Prop where
  input : r.machine.input = m.input
  report : ∀ report, r.fault? = some (.report report) →
    report.line = m.line?.map Int.ofNat ∧ ¬report.IsAtEnd

namespace Machine

variable {m m' : Machine}

theorem staysAt_of_none {r : Run} (hinput : r.machine.input = m.input) (h : r.fault? = none) :
    r.StaysAt m := by
  refine ⟨hinput, fun report hreport => ?_⟩
  rw [h] at hreport
  cases hreport

/-- A fault that is not of the kind that the end of the source has. -/
theorem staysAt_of_kind {command : String} {kind : ErrorKind} {detail : Option String}
    (hinput : m'.input = m.input) (hkind : kind ≠ .lexical) :
    (Run.failed m' (m.fault command (.report kind detail))).StaysAt m := by
  refine ⟨hinput, fun report hreport => ?_⟩
  rw [← Fault.report.inj (Option.some.inj hreport)]
  exact ⟨rfl, fun hend => hkind hend.1⟩

/-- Commands that the end of the source is not reported under. -/
def OtherCommand (command : String) : Prop :=
  commandName command ≠ openBrace ∧ commandName command ≠ Operator.findfont.name

/-- A fault in another command. -/
theorem staysAt_of_command {command : String} {c : Complaint} (hinput : m'.input = m.input)
    (hcommand : OtherCommand command) :
    (Run.failed m' (m.fault command c)).StaysAt m := by
  refine ⟨hinput, fun report hreport => ?_⟩
  cases c with
  | undefinedArithmetic => cases hreport
  | report kind detail =>
      rw [← Fault.report.inj (Option.some.inj hreport)]
      refine ⟨rfl, fun hend => ?_⟩
      rcases hend.2 with h | h
      · exact hcommand.1 (Option.some.inj h)
      · exact hcommand.2 (Option.some.inj h)

theorem staysAt_push (command : String) (value : Value) :
    (Run.ofChange m command (m.push? m.settings value)).StaysAt m := by
  unfold State.push?
  split
  · exact staysAt_of_none rfl rfl
  · exact staysAt_of_kind rfl (by decide)

theorem staysAt_pushCaptured (lexeme : String) (body : List String) :
    (m.pushCaptured lexeme body).StaysAt m := by
  unfold pushCaptured State.pushProcedure?
  split
  · exact staysAt_of_none rfl rfl
  · exact staysAt_of_kind rfl (by decide)

theorem staysAt_number (lexeme : String) :
    (Run.ofChange m lexeme
      ((readNumber lexeme).bind fun x => m.push? m.settings (.real x))).StaysAt m := by
  unfold readNumber
  split
  · exact staysAt_of_kind rfl (by decide)
  · split
    · exact staysAt_push lexeme _
    · exact staysAt_of_kind rfl (by decide)

theorem staysAt_closeArray : m.closeArray.StaysAt m := by
  rcases hmarks : m.marks with _ | ⟨height, marks⟩
  · rw [closeArray_of_nil hmarks]
    exact staysAt_of_kind rfl (by decide)
  · rcases Nat.lt_or_ge m.operands.length height with hlt | hle
    · rw [closeArray_of_lt hmarks hlt]
      exact staysAt_of_kind rfl (by decide)
    · rw [closeArray_of_le hmarks hle]
      split
      · exact staysAt_of_none rfl rfl
      · exact staysAt_of_kind rfl (by decide)

theorem staysAt_stepPlain (lexeme : String) : (m.stepPlain lexeme).StaysAt m := by
  unfold stepPlain
  split
  · exact ⟨rfl, fun report hreport => by cases hreport⟩
  · split
    · exact staysAt_push lexeme _
    · split
      · exact staysAt_number lexeme
      · split
        · exact staysAt_of_none rfl rfl
        · split
          · exact staysAt_closeArray
          · exact staysAt_of_kind rfl (by decide)

theorem staysAt_beginLexeme (lexeme : String) : (m.beginLexeme lexeme).run.StaysAt m := by
  unfold beginLexeme beginName
  split
  · split
    · exact staysAt_of_none rfl rfl
    · exact staysAt_of_kind rfl (by decide)
  · exact staysAt_stepPlain lexeme

theorem otherCommand_of_ne {op : Operator} (h : op ≠ .findfont) : OtherCommand op.name := by
  have hall : ∀ op ∈ Operator.all, op ≠ .findfont →
      commandName op.name ≠ openBrace ∧ commandName op.name ≠ Operator.findfont.name := by
    decide +kernel
  exact hall op op.mem_all h

theorem staysAt_beginOperator {op : Operator} (h : op ≠ .findfont) :
    (m.beginOperator op).run.StaysAt m := by
  cases op with
  | primitive p =>
      change (m.perform p).StaysAt m
      rw [perform_eq]
      split
      · exact staysAt_of_none rfl rfl
      · exact staysAt_of_command rfl (otherCommand_of_ne h)
  | findfont => exact absurd rfl h
  | conditional =>
      change m.beginConditional.run.StaysAt m
      unfold beginConditional
      split
      · exact staysAt_of_command rfl (otherCommand_of_ne h)
      · exact staysAt_of_none rfl rfl
      · exact staysAt_of_none rfl rfl

theorem staysAt_beginValue (name : String) {value : Value} (h : value ≠ .operator .findfont) :
    (m.beginValue name value).run.StaysAt m := by
  cases value with
  | operator op =>
      have hother := staysAt_beginOperator (m := m) (fun hop : op = .findfont => h (by rw [hop]))
      exact ⟨hother.input, hother.report⟩
  | procedure identity body =>
      simp only [beginValue, enter]
      split
      · exact staysAt_of_none rfl rfl
      · exact staysAt_of_kind rfl (by decide)
  | literal identity inner => exact staysAt_push name inner
  | real x | name text | bool b | array identity items => exact staysAt_of_kind rfl (by decide)

end Machine

/-- A run whose source is what requests made of it. What it reports is about the last
    line read, and about the end of the source just in case a request was not met. -/
structure Run.Follows (s : Session) (r : Run) : Prop where
  input : r.machine.input = some s.tokenizer
  report : ∀ report, r.fault? = some (.report report) →
    report.line = some (Int.ofNat s.tokenizer.line) ∧ (report.IsAtEnd ↔ ¬s.Met)

section Tasks

variable {m : Machine} {s : Session}

/-- Without requests, as long as all have been met. -/
theorem Run.StaysAt.follows {r : Run} (h : r.StaysAt m) (hinput : m.input = some s.tokenizer)
    (hmet : s.Met) : r.Follows s := by
  refine ⟨h.input.trans hinput, fun report hreport => ?_⟩
  rcases h.report report hreport with ⟨hline, hother⟩
  refine ⟨?_, fun hend => absurd hend hother, fun hnot => absurd hmet hnot⟩
  rw [hline, Machine.line?, hinput]
  rfl

/-- Passing over font definitions. -/
theorem Machine.follows_findFont (hinput : m.input = some s.tokenizer)
    (hreadable : s.tokenizer.Readable) (hmet : s.Met) (name : String) :
    let after := ((Task.execute (.operator .findfont) name).requests m).foldl Session.make s
    m.findFont.Follows after ∧ (m.findFont.fault? = none → after.Met) := by
  rcases hoperands : m.operands with _ | ⟨cell, rest⟩
  · have hnone : (Task.execute (.operator .findfont) name).requests m = [] := by
      simp only [Task.requests, hoperands, List.isEmpty_nil, if_true]
    rw [hnone, findFont_of_nil hoperands]
    exact ⟨(staysAt_of_kind rfl (by decide)).follows hinput hmet, fun _ => hmet⟩
  · have hskip : (Task.execute (.operator .findfont) name).requests m
        = [.skipTo m.settings.prologMarker] := by
      simp only [Task.requests, hoperands, List.isEmpty_cons, Bool.false_eq_true, if_false]
    rcases (Tokenizer.readable_skipTo hreadable m.settings.prologMarker).1 with ⟨found, hfound⟩
    rw [hskip, findFont_of_cons hoperands]
    simp only [skipFonts, hinput, hfound, List.foldl_cons, List.foldl_nil, Session.make]
    cases found with
    | true =>
        exact ⟨⟨rfl, fun report hreport => by cases hreport⟩, fun _ => Session.met_cons rfl hmet⟩
    | false =>
        -- The lines have ended, and the report says so.
        have hname : commandName Operator.findfont.name = Operator.findfont.name := by
          decide +kernel
        refine ⟨⟨rfl, fun report hreport => ?_⟩, fun hnone => by cases hnone⟩
        rw [← Fault.report.inj (Option.some.inj hreport)]
        exact ⟨rfl, fun _ => Session.not_met_cons rfl, fun _ => ⟨rfl, .inr (congrArg some hname)⟩⟩

/-- Capturing a body from the source. -/
theorem Machine.follows_captureInput (hinput : m.input = some s.tokenizer)
    (hreadable : s.tokenizer.Readable) (hmet : s.Met) (lexeme : String) :
    let after := s.tokenizer.captureRequests.foldl Session.make s
    (m.captureInput lexeme).Follows after ∧
      ((m.captureInput lexeme).fault? = none → after.Met) := by
  intro after
  have hamounts : after.tokenizer = (s.tokenizer.capture 0).2 ∧
      (after.Met ↔ ∃ body, (s.tokenizer.capture 0).1 = .ok body) :=
    Session.amounts_capture hreadable s.log hmet
  have hdecodes : ∀ e, (s.tokenizer.capture 0).1 ≠ .error (.decoding e) :=
    (Tokenizer.readable_capture hreadable).1
  simp only [captureInput, hinput]
  rcases hcapture : s.tokenizer.capture 0 with ⟨found, rest⟩
  rw [hcapture] at hamounts hdecodes
  rcases hamounts with ⟨hrest, hclosed⟩
  cases found with
  | ok body =>
      have hmet : after.Met := hclosed.mpr ⟨body, rfl⟩
      have hpushed := staysAt_pushCaptured (m := { m with input := some rest }) lexeme body
      exact ⟨hpushed.follows (congrArg some hrest.symm) hmet, fun _ => hmet⟩
  | error e =>
      cases e with
      | decoding e => exact absurd rfl (hdecodes e)
      | unclosed depth =>
          have hunmet : ¬after.Met := by
            rw [hclosed]
            rintro ⟨_, hbody⟩
            cases hbody
          have hname : commandName openBrace = openBrace := by decide +kernel
          refine ⟨⟨congrArg some hrest.symm, fun report hreport => ?_⟩, fun hnone => by cases hnone⟩
          rw [← Fault.report.inj (Option.some.inj hreport), hrest]
          exact ⟨rfl, fun _ => hunmet, fun _ => ⟨rfl, .inl (congrArg some hname)⟩⟩

/-- Reading the source on. If there is no lexeme, nothing is left to do. -/
theorem Task.follows_perform_input (hinput : m.input = some s.tokenizer)
    (hreadable : s.tokenizer.Readable) (hmet : s.Met) :
    let after := ((Task.run .input).requests m).foldl Session.make s
    let performed := (Task.run .input).perform m
    performed.run.Follows after ∧
      (performed.run.fault? = none → performed.tasks ≠ [] → after.Met) := by
  rcases (Tokenizer.readable_next hreadable).1 with ⟨found, hfound⟩
  rcases hnext : s.tokenizer.next with ⟨_, rest⟩
  rw [hnext] at hfound
  cases hfound
  have hrest := Tokenizer.readable_of_next_eq hreadable hnext
  have hlexeme : m.nextLexeme = (.ok found, { m with input := some rest }) := by
    simp only [Machine.nextLexeme, hinput, hnext]
    rfl
  have hmake : s.make .next = ⟨.next (.ok found) rest.line :: s.log, rest⟩ :=
    Session.make_next hnext
  simp only [perform, Supply.take, hlexeme, requests, hinput, hnext]
  cases found with
  | none =>
      -- The request is not met, but the program ends here.
      rw [List.foldl_cons, hmake]
      exact ⟨⟨rfl, fun report hreport => by cases hreport⟩, fun _ htasks => absurd rfl htasks⟩
  | some lexeme =>
      rw [List.foldl_cons, hmake]
      have hmet : Session.Met ⟨.next (.ok (some lexeme)) rest.line :: s.log, rest⟩ :=
        Session.met_cons rfl hmet
      cases hbegins : Machine.beginsProcedure lexeme with
      | true =>
          simp only [hbegins, if_true]
          rcases Machine.follows_captureInput (m := { m with input := some rest }) rfl hrest hmet
            lexeme with ⟨hfollows, hnone⟩
          exact ⟨hfollows, fun hfault _ => hnone hfault⟩
      | false =>
          simp only [hbegins, Bool.false_eq_true, if_false]
          have hbegun := Machine.staysAt_beginLexeme (m := { m with input := some rest }) lexeme
          exact ⟨hbegun.follows rfl hmet, fun _ _ => hmet⟩

/-- Running what is left of a body leaves the source alone. -/
theorem Task.staysAt_perform_list {lexemes : List String} (h : Code lexemes) :
    ((Task.run (.list lexemes)).perform m).run.StaysAt m := by
  cases lexemes with
  | nil => exact Machine.staysAt_of_none rfl rfl
  | cons lexeme rest =>
      simp only [perform, Supply.take]
      split
      · next hbegins =>
          -- A procedure inside a body is closed.
          rcases h.exists_capture hbegins with ⟨body, left, hcapture⟩
          simp only [Supply.capture, hcapture]
          exact Machine.staysAt_pushCaptured lexeme body
      · exact Machine.staysAt_beginLexeme lexeme

/-- What a task asks of the source, and what it reports. As long as something is left to
    do, what it asked for has been met. -/
theorem Task.follows_perform {V : Value → Prop} {task : Task} (htask : task.Sound V Code)
    (hinput : m.input = some s.tokenizer) (hreadable : s.tokenizer.Readable) (hmet : s.Met) :
    let after := (task.requests m).foldl Session.make s
    let performed := task.perform m
    performed.run.Follows after ∧
      (performed.run.fault? = none → performed.tasks ≠ [] ∨ task ≠ .run .input → after.Met) := by
  cases task with
  | run supply =>
      cases supply with
      | list lexemes =>
          exact ⟨(staysAt_perform_list htask).follows hinput hmet, fun _ _ => hmet⟩
      | input =>
          rcases follows_perform_input hinput hreadable hmet with ⟨hfollows, hnone⟩
          refine ⟨hfollows, fun hfault hleft => hnone hfault ?_⟩
          rcases hleft with htasks | hother
          · exact htasks
          · exact absurd rfl hother
  | execute value name =>
      by_cases hfont : value = .operator .findfont
      · rw [hfont]
        rcases Machine.follows_findFont hinput hreadable hmet name with ⟨hfollows, hnone⟩
        exact ⟨⟨hfollows.input, hfollows.report⟩, fun hfault _ => hnone hfault⟩
      · have hnone : (Task.execute value name).requests m = [] := by
          unfold requests
          split
          · next heq => cases heq
          · next heq => exact absurd (Task.execute.inj heq).1 hfont
          · rfl
        rw [hnone]
        exact ⟨(Machine.staysAt_beginValue name hfont).follows hinput hmet, fun _ _ => hmet⟩
  | leave =>
      have hleft : ((Task.leave).perform m).run.StaysAt m := Machine.staysAt_of_none rfl rfl
      exact ⟨hleft.follows hinput hmet, fun _ _ => hmet⟩

end Tasks

namespace Process

/-- What the next step asks of the source. After a fault tasks are dropped, and nothing is
    asked. -/
def requests (p : Process) : List Request :=
  match p.run.fault?, p.tasks with
  | none, task :: _ => task.requests p.run.machine
  | _, _ => []

/-- What a number of steps ask of the source. -/
def requestsIn : Nat → Process → List Request
  | 0, _ => []
  | n + 1, p => p.requests ++ requestsIn n p.step

theorem requestsIn_succ (p : Process) (n : Nat) :
    p.requestsIn (n + 1) = p.requestsIn n ++ (p.after n).requests := by
  induction n generalizing p with
  | zero => rw [requestsIn, requestsIn, requestsIn, List.append_nil]; rfl
  | succ n ih =>
      rw [requestsIn, ih, ← List.append_assoc]
      rfl

/-- A process whose source is what requests made of it. As long as something is left to
    do, they have been met. -/
structure Follows (s : Session) (p : Process) : Prop where
  run : p.run.Follows s
  met : p.run.fault? = none → p.tasks ≠ [] → s.Met

/-- A step asks of the source what its task does. -/
theorem follows_step {p : Process} {s : Session} {I : Machine → Prop} {V : Value → Prop}
    (hsound : p.Sound I V Code) (hnested : Nested p.run.machine.depth p.tasks)
    (hreadable : s.tokenizer.Readable) (h : p.Follows s) :
    p.step.Follows (p.requests.foldl Session.make s) := by
  rcases p with ⟨tasks, r⟩
  cases tasks with
  | nil =>
      have hnone : requests ⟨[], r⟩ = [] := by
        unfold requests
        split
        · next heq => cases heq
        · rfl
      rw [hnone]
      exact h
  | cons task tasks =>
      rcases Option.eq_none_or_eq_some r.fault? with hnone | ⟨f, hsome⟩
      · have hrequests : requests ⟨task :: tasks, r⟩ = task.requests r.machine := by
          simp only [requests, hnone]
        have htask := hsound.tasks task List.mem_cons_self
        have hmet := h.met hnone (List.cons_ne_nil _ _)
        rcases Task.follows_perform htask h.run.input hreadable hmet with ⟨hfollows, hdone⟩
        rw [hrequests, step_of_none hnone]
        refine ⟨⟨hfollows.input, hfollows.report⟩, fun hfault hleft => hdone hfault ?_⟩
        -- When the source is read on, nothing else is left to do.
        by_cases hsource : task = .run .input
        · subst hsource
          rw [hnested.source_alone.2, List.append_nil] at hleft
          exact .inl hleft
        · exact .inr hsource
      · -- After a fault the task is dropped, and the report stays what it was.
        have hrequests : requests ⟨task :: tasks, r⟩ = [] := by
          simp only [requests, hsome]
        rw [hrequests, step_of_fault hsome]
        have hinput : (task.abandon r.machine).input = r.machine.input := by
          cases task <;> rfl
        refine ⟨⟨hinput.trans h.run.input, h.run.report⟩, fun hfault => ?_⟩
        rw [show r.fault? = none from hfault] at hsome
        cases hsome

end Process

/-- The source of a text is what the requests of all steps so far made of it. -/
theorem follows_after (settings : Settings) (text : String) (n : Nat) :
    let p := Process.start (.start settings (.text text)) .input
    (p.after n).Follows (Session.ofText text (p.requestsIn n)) := by
  intro p
  induction n with
  | zero => exact ⟨⟨rfl, fun report hreport => by cases hreport⟩, fun _ _ => List.forall_mem_nil _⟩
  | succ n ih =>
      have hsupply : ∀ lexemes, Supply.input = .list lexemes → Code lexemes :=
        fun lexemes h => by cases h
      have hsound := hasCode_upheld.sound_after settings (.text text) hsupply n
      have hreadable := (readsText_after settings text n).readable ih.run.input
      rw [Process.after_succ, Process.requestsIn_succ, Session.ofText, List.foldl_append]
      exact Process.follows_step hsound (nested_after rfl n) hreadable ih

/-- Errors name their line. Of a text whose import ends in a report, take what the steps
    of the run ask of the source, and what these requests consume, going by where lexemes
    and markers are in the text. The tokenizer has answered the requests accordingly, and
    would still deliver exactly the lexemes that lie after everything consumed. If the
    report is for want of a closing brace or of a marker, its line is the number of lines
    there are. Otherwise it is the line of the last lexeme consumed, or the line of the
    last marker if that is larger. -/
theorem errors_name_their_line (settings : Settings) (text : String) (report : Report)
    (h : (importSource settings (.text text)).fault? = some (.report report)) :
    let p := Process.start (.start settings (.text text)) .input
    let run := importSource settings (.text text)
    let lines := linesOf text
    (∃ n, p.after n = .finished run) ∧
    ∀ n, p.after n = .finished run →
      let session := Session.ofText text (p.requestsIn n)
      let history := consumption lines (p.requestsIn n)
      run.machine.input = some session.tokenizer ∧
      session.log.reverse = history.map Consumed.exchange ∧
      (report.IsAtEnd → report.line = some (Int.ofNat lines.length)) ∧
      (¬report.IsAtEnd →
        report.line = some (Int.ofNat (max (lastLexemeLine history) (lastMarkerLine history)))) ∧
      session.tokenizer.drain.1 = .ok ((leftAfter lines history).map (·.text)) := by
  intro p run lines
  refine ⟨Process.reaches_runFrom _ .input, ?_⟩
  intro n hend session history
  have hfollows : (p.after n).Follows session := follows_after settings text n
  have hplacing : session.Placing lines history := Session.placing_ofText text (p.requestsIn n)
  have hfaithful : session.Faithful lines := Session.faithful_ofText text (p.requestsIn n)
  rw [hend] at hfollows
  -- Which of the two cases it is depends on whether all requests were met.
  rcases hfollows.run.report report h with ⟨hline, hatEnd⟩
  refine ⟨hfollows.run.input, hplacing.log, ?_, ?_, hplacing.drain hfaithful⟩
  · intro hreport
    rw [hline, hplacing.line_of_not_met hfaithful (hatEnd.mp hreport)]
  · intro hreport
    have hmet : session.Met :=
      Classical.byContradiction fun hunmet => hreport (hatEnd.mpr hunmet)
    rw [hline, hplacing.line_of_met hmet]

/-- Font definitions are passed over in a procedure that is run on the second line. When
    the procedure fails afterwards, the line of the marker is the fourth, and only the
    fifth is left. -/
theorem errors_name_their_line_past_fonts :
    let text := "/f \x7b /Times findfont pop \x7d def\nf 1 2\njunk\n%%EndProlog\n3 4\n"
    let p := Process.start (.start Settings.standard (.text text)) .input
    let history := consumption (linesOf text) (p.requestsIn 30)
    ∃ report tokenizer,
      (importSource Settings.standard (.text text)).fault? = some (.report report) ∧
      (importSource Settings.standard (.text text)).machine.input = some tokenizer ∧
      report.line = some 4 ∧ lastLexemeLine history = 2 ∧ lastMarkerLine history = 4 ∧
      tokenizer.drain.1 = .ok ["3", "4"] := by
  intro text p history
  let report : Report := ⟨.stackUnderflow, some "pop", some 4, none⟩
  have hend : (p.after 30).tasks.isEmpty = true ∧
      (p.after 30).run.fault? = some (.report report) ∧
      lastLexemeLine history = 2 ∧ lastMarkerLine history = 4 ∧
      (leftAfter (linesOf text) history).map (·.text) = ["3", "4"] := by
    decide +kernel
  rcases hend with ⟨htasks, hfault, hlexeme, hmarker, hleft⟩
  have hrun : importSource Settings.standard (.text text) = (p.after 30).run :=
    Process.runFrom_eq_of_tasks_nil (List.isEmpty_iff.mp htasks)
  have hfinished : p.after 30 = .finished (importSource Settings.standard (.text text)) := by
    rw [hrun, Process.finished, ← List.isEmpty_iff.mp htasks]
  rw [← hrun] at hfault
  rcases (errors_name_their_line Settings.standard text report hfault).2 30 hfinished with
    ⟨hinput, _, _, hline, hdrain⟩
  refine ⟨report, _, hfault, hinput, ?_, hlexeme, hmarker, ?_⟩
  · have hother : ¬report.IsAtEnd := fun hatEnd => absurd hatEnd.1 (by decide)
    change _ = some (Int.ofNat (max 2 4))
    rw [← hlexeme, ← hmarker]
    exact hline hother
  · rw [← hleft]
    exact hdrain

end PathScript
