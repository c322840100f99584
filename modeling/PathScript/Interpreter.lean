import PathScript.Capture
import PathScript.Number.Literal
import PathScript.Primitive.Refinement
import PathScript.Text.Letter

/-!
# The Interpreter

What a lexeme does depends on its first character. A solidus makes the rest a
literal name, which is pushed; an open brace begins a procedure, which is
captured and pushed; a letter makes the lexeme a name, and what it is bound to
is executed; a digit, a point or a minus sign makes it a number; and brackets
delimit arrays. Nothing else is a lexeme of the language.

Names can be bound to procedures that invoke themselves, so running a program
is bounded only by the limit on how deeply procedures may nest. The definition
is built on that limit. `callerAt n` invokes a procedure when `n` more levels
are allowed: with none left it refuses, and otherwise it runs the body with
`callerAt (n - 1)` for the procedures inside. Everything between two levels
ends for reasons of its own. A body has finitely many lexemes. An operator
ends at once, the conditional included, since a conditional that invokes
another conditional has taken two operands off the stack. And the source is
finite: nothing a program does adds to it, which is what the theorems here
say.

## Main definitions

* `Caller`: A way to invoke procedures.
* `Machine.invoke`: Invoking an operator.
* `Machine.execute`: Executing a value under a name.
* `Machine.closeArray`: What a closing bracket does.
* `Machine.step`: What a lexeme does, capturing aside.
* `Machine.runLexemes`: Running a list of lexemes.
* `callerAt`: Invoking procedures at a level.
* `Machine.accept`: What a lexeme from the source does.
* `Machine.advance`: One lexeme of the source.
* `Machine.runInput`: Running the source to its end.
* `Machine.readLexemes`: Running a number of lexemes of the source.
* `Machine.trace`: The runs of each lexeme of the source in turn.

## Theorems

* `Action.run_takeCondition`, `Machine.perform_eq`: What the steps of a conditional and
  of a primitive operator come to.
* `Machine.inputSize_step_le`, `Machine.inputSize_runLexemes_le`,
  `callerAt_steady`: Nothing a program does adds to its source.
* `Machine.inputSize_advance_lt`: Each lexeme of the source uses some of it up.
-/

namespace PathScript

/-- A way to invoke procedures: under a name, with a body, on a machine. -/
abbrev Caller := String → List String → Machine → Run

/-- Invoking a procedure does not add to the source. -/
def Caller.Steady (call : Caller) : Prop :=
  ∀ (name : String) (body : List String) (m : Machine),
    (call name body m).machine.inputSize ≤ m.inputSize

/-- What can be observed of a primitive operator that completes in a state. -/
def Primitive.remarks (p : Primitive) (s : State) : List Event :=
  match p, s.operands with
  | .setgray, ⟨.real level, _⟩ :: _ => [.grayDropped level]
  | .setrgbcolor, ⟨.real blue, _⟩ :: ⟨.real green, _⟩ :: ⟨.real red, _⟩ :: _ =>
      [.colorDropped red green blue]
  | .eofill, _ => [.paintDropped s.graphics.path]
  | .fill, _ => [.painted p s.graphics.path]
  | .stroke, _ => [.painted p s.graphics.path]
  | _, _ => []

/-- Takes the operands of a conditional off the stack: the value to execute, if
    the condition holds. -/
def State.takeCondition (s : State) : Except Complaint (Option Value × State) :=
  match s.operands with
  | ⟨target, _⟩ :: ⟨.bool b, _⟩ :: rest =>
      if target.isExecutable then
        .ok (if b then some target else none, { s with operands := rest })
      else .error (.plain .typeMismatch)
  | operands => .error (.operands 2 operands)

/-- The operands of a conditional are taken off the stack. -/
theorem State.length_takeCondition {s s' : State} {target : Option Value}
    (h : s.takeCondition = .ok (target, s')) : s'.operands.length < s.operands.length := by
  unfold takeCondition at h
  split at h
  · next value _ b _ rest hoperands =>
      split at h
      · simp only [Except.ok.injEq, Prod.mk.injEq] at h
        rw [← h.2, hoperands]
        simp only [List.length_cons]
        omega
      · exact absurd h (by simp)
  · exact absurd h (by simp)

/-- Looking at the operands of a conditional and taking them off, in steps. -/
theorem Action.run_takeCondition (s : State) :
    takeCondition.run s = atOnce s s.takeCondition := by
  unfold State.takeCondition takeCondition
  split
  · next target _ b _ rest h =>
      rw [run_bind_of_ok (run_belowTop_of_some Value.bool? h rfl),
        run_bind_of_ok (run_operand (by rw [h]; rfl))]
      dsimp only
      have hrest : (s.operands.drop 1).drop 1 = rest := by rw [h]; rfl
      by_cases hexecutable : target.isExecutable = true
      · rw [if_pos hexecutable, if_pos hexecutable, ← hrest]
        rfl
      · rw [if_neg hexecutable, if_neg hexecutable]
        rfl
  · next h =>
      have htype : (belowTop Value.bool?).run s = .error (.operands 2 s.operands) s := by
        refine run_belowTop_of_none _ fun ⟨target, other?⟩ value object? rest hoperands => ?_
        cases value with
        | bool b => exact (h target other? b object? rest hoperands).elim
        | _ => rfl
      rw [run_bind_of_error htype]
      rfl

theorem State.takeCondition_of_run_ok {s s' : State} {target : Option Value}
    (h : Action.takeCondition.run s = .ok target s') : s.takeCondition = .ok (target, s') := by
  rw [Action.run_takeCondition] at h
  exact eq_ok_of_atOnce h

theorem State.takeCondition_of_run_error {s s' : State} {c : Complaint}
    (h : Action.takeCondition.run s = .error c s') : s.takeCondition = .error c ∧ s' = s := by
  rw [Action.run_takeCondition] at h
  exact eq_error_of_atOnce h

namespace Machine

/-- Performs a primitive operator, step by step. -/
def perform (m : Machine) (p : Primitive) : Run :=
  match (p.steps m.settings).run m.toState with
  | .ok () s => ⟨{ m with toState := s }, none, p.remarks m.toState⟩
  | .error c s => .failed { m with toState := s } (m.fault p.name c)

/-- A primitive operator completes with the change that it makes, or objects and leaves
    the machine as it was. -/
theorem perform_eq (m : Machine) (p : Primitive) :
    m.perform p =
      match p.perform m.settings m.toState with
      | .ok s => ⟨{ m with toState := s }, none, p.remarks m.toState⟩
      | .error c => .failed m (m.fault p.name c) := by
  unfold perform
  rw [p.performs_steps m.settings m.toState]
  cases p.perform m.settings m.toState <;> rfl

/-- Takes the name of a font off the stack and passes over the definitions of
    fonts that follow in the source. -/
def findFont (m : Machine) : Run :=
  let command := Operator.findfont.name
  match m.operands with
  | [] => .failed m (m.fault command (.plain .stackUnderflow))
  | _ :: rest =>
      let m := { m with operands := rest }
      match m.input with
      | none => .failed m .nothingToSkip
      | some t =>
          let marker := m.settings.prologMarker
          let skipped := t.skipTo marker
          let m := { m with input := some skipped.rest }
          match skipped.found with
          | .error e => .failed m (.decoding e)
          | .ok false =>
              let detail := "stream ended before " ++ m.settings.markerText
              .failed m (m.fault command (.because .lexical detail))
          | .ok true =>
              (Run.done m).after
                (.skipped skipped.count m.settings.markerText skipped.rest.line)

/-- Executes a value that is not an operator: a procedure is invoked and a
    literal procedure pushes its value. -/
def executeValue (call : Caller) (value : Value) (name : String) (m : Machine) : Run :=
  match value with
  | .procedure _ body => call name body m
  | .literal _ inner => .ofChange m name (m.push? m.settings inner)
  | _ => .failed m (m.fault name (.plain .typeMismatch))

/-- Invokes an operator. -/
def invoke (call : Caller) (op : Operator) (m : Machine) : Run :=
  match op with
  | .primitive p => m.perform p
  | .findfont => m.findFont
  | .conditional =>
      let command := Operator.conditional.name
      match _h : Action.takeCondition.run m.toState with
      | .error c s => .failed { m with toState := s } (m.fault command c)
      | .ok none s => .done { m with toState := s }
      | .ok (some (.operator op)) s => (invoke call op { m with toState := s }).after (.invoked op)
      | .ok (some value) s => executeValue call value command { m with toState := s }
termination_by m.operands.length
decreasing_by exact State.length_takeCondition (State.takeCondition_of_run_ok _h)

/-- Executes what a name is bound to. -/
def execute (call : Caller) (value : Value) (name : String) (m : Machine) : Run :=
  match value with
  | .operator op => (m.invoke call op).after (.invoked op)
  | _ => m.executeValue call value name

/-- Remembers the height of the operand stack at an open bracket. -/
def openArray (m : Machine) : Machine := { m with marks := m.operands.length :: m.marks }

/-- Gathers the operands above the last open bracket into an array. The bracket
    is forgotten and the operands are taken off before there can be a lack of
    room for the array. -/
def closeArray (m : Machine) : Run :=
  let command := "]"
  match m.marks with
  | [] => .failed m (m.fault command (.plain .unmatchedBracket))
  | height :: marks =>
      let m := { m with marks := marks }
      if m.operands.length < height then
        .failed m (m.fault command (.plain .stackUnderflow))
      else
        let count := m.operands.length - height
        let items := (m.operands.take count).reverse.map (·.value)
        let m := { m with operands := m.operands.drop count }
        if m.hasRoom m.settings then .done { m with toState := m.pushArray items }
        else .failed m (m.fault command (.plain .stackOverflow))

/-- Whether a lexeme that begins with this character is meant as a number. -/
def startsNumber (c : Char) : Bool := Literal.isDigit c || c == '.' || c == '-'

/-- The number a lexeme denotes. -/
def readNumber (lexeme : String) : Except Complaint Binary64 :=
  match Literal.value? lexeme with
  | none => .error (.plain .numberFormat)
  | some x =>
      if x.isFinite then .ok x else .error (.because .numberFormat "number out of range")

/-- Executes what a lexeme is bound to as a name. -/
def executeName (call : Caller) (name : String) (m : Machine) : Run :=
  match m.lookup? name with
  | some cell => m.execute call cell.value name
  | none => .failed m (m.fault name (.plain .undefined))

/-- What a lexeme does that does not begin a procedure. -/
def step (call : Caller) (lexeme : String) (m : Machine) : Run :=
  match lexeme.toList with
  | [] => .failed m .emptyLexeme
  | first :: rest =>
      if first = nameMark then
        .ofChange m lexeme (m.push? m.settings (.name (String.ofList rest)))
      else if isLetter first then m.executeName call lexeme
      else if startsNumber first then
        .ofChange m lexeme ((readNumber lexeme).bind fun x => m.push? m.settings (.real x))
      else if first = '[' then .done m.openArray
      else if first = ']' then m.closeArray
      else .failed m (m.fault lexeme (.plain .unknownToken))

/-- Whether a lexeme begins a procedure. -/
def beginsProcedure (lexeme : String) : Bool := lexeme.toList.head? == some '\x7b'

/-- Pushes a captured procedure. -/
def pushCaptured (m : Machine) (lexeme : String) (body : List String) : Run :=
  .ofChange m lexeme (m.pushProcedure? m.settings body)

/-- The complaint about procedures that are not closed. -/
def unclosed (depth : Nat) : Complaint :=
  .because .lexical ("stream ended inside " ++ toString depth ++ " open procedure(s)")

/-- Runs a list of lexemes. -/
def runLexemes (call : Caller) (lexemes : List String) (m : Machine) : Run :=
  match lexemes with
  | [] => .done m
  | lexeme :: rest =>
      if beginsProcedure lexeme then
        match _h : capture 0 rest with
        | .error depth => .failed m (m.fault openBrace (unclosed depth))
        | .ok (body, left) => (m.pushCaptured lexeme body).andThen (runLexemes call left)
      else (m.step call lexeme).andThen (runLexemes call rest)
termination_by lexemes.length
decreasing_by
  · exact Nat.lt_succ_of_lt (length_of_capture 0 rest body left _h)
  · exact Nat.lt_succ_self _

end Machine

/-- Invokes procedures when a number of further levels is allowed. -/
def callerAt : Nat → Caller
  | 0 => fun name _ m => .failed m (m.fault name (.plain .execStackOverflow))
  | level + 1 => fun name body m =>
      let inner := Machine.runLexemes (callerAt level) body { m with depth := m.depth + 1 }
      { inner with machine := { inner.machine with depth := m.depth } }.after (.entered name body)

namespace Machine

/-- The number of levels of procedures that a machine may still enter. -/
def allowance (m : Machine) : Nat := (m.settings.maxDepth - m.depth).toNat

/-- Passing over font definitions does not add to the source. -/
theorem inputSize_findFont_le (m : Machine) : m.findFont.machine.inputSize ≤ m.inputSize := by
  unfold findFont
  split
  · exact Nat.le_refl _
  · cases hinput : m.input with
    | none => exact Nat.le_of_eq (by simp only [Run.failed, inputSize, hinput])
    | some t =>
        have hskip := t.size_skipTo_le m.settings.prologMarker
        have hsize : m.inputSize = t.size := by simp only [inputSize, hinput, Option.elim_some]
        rw [hsize]
        dsimp only
        split <;> exact hskip

/-- A primitive operator leaves the source alone. -/
@[simp]
theorem inputSize_perform (m : Machine) (p : Primitive) :
    (m.perform p).machine.inputSize = m.inputSize := by
  unfold perform
  split <;> rfl

/-- Executing a value does not add to the source if invoking procedures does
    not. -/
theorem inputSize_executeValue_le (call : Caller) (hcall : call.Steady) (value : Value)
    (name : String) (m : Machine) :
    (m.executeValue call value name).machine.inputSize ≤ m.inputSize := by
  unfold executeValue
  split
  · exact hcall _ _ _
  · exact Nat.le_of_eq (Run.inputSize_ofChange _ _ _)
  · exact Nat.le_refl _

/-- Invoking an operator does not add to the source if invoking procedures does
    not. -/
theorem inputSize_invoke_le (call : Caller) (hcall : call.Steady) (op : Operator)
    (m : Machine) : (m.invoke call op).machine.inputSize ≤ m.inputSize := by
  fun_induction invoke call op m with
  | case1 m p => exact Nat.le_of_eq (inputSize_perform m p)
  | case2 m => exact inputSize_findFont_le m
  | case3 m command c h => exact Nat.le_refl _
  | case4 m s h => exact Nat.le_refl _
  | case5 m op s h ih => exact ih
  | case6 m command value s hop h => exact inputSize_executeValue_le call hcall _ _ _

/-- Executing what a name is bound to does not add to the source if invoking
    procedures does not. -/
theorem inputSize_execute_le (call : Caller) (hcall : call.Steady) (value : Value)
    (name : String) (m : Machine) :
    (m.execute call value name).machine.inputSize ≤ m.inputSize := by
  unfold execute
  split
  · exact inputSize_invoke_le call hcall _ m
  · exact inputSize_executeValue_le call hcall _ _ m

/-- A closing bracket leaves the source alone. -/
@[simp]
theorem inputSize_closeArray (m : Machine) :
    m.closeArray.machine.inputSize = m.inputSize := by
  unfold closeArray
  split
  · rfl
  · dsimp only
    split
    · rfl
    · split <;> rfl

/-- A lexeme does not add to the source if invoking procedures does not. -/
theorem inputSize_step_le (call : Caller) (hcall : call.Steady) (lexeme : String)
    (m : Machine) : (m.step call lexeme).machine.inputSize ≤ m.inputSize := by
  unfold step
  split
  · exact Nat.le_refl _
  · split
    · exact Nat.le_of_eq (Run.inputSize_ofChange _ _ _)
    · split
      · unfold executeName
        split
        · exact inputSize_execute_le call hcall _ _ m
        · exact Nat.le_refl _
      · split
        · exact Nat.le_of_eq (Run.inputSize_ofChange _ _ _)
        · split
          · exact Nat.le_refl _
          · split
            · exact Nat.le_of_eq (inputSize_closeArray m)
            · exact Nat.le_refl _

/-- Running lexemes does not add to the source if invoking procedures does
    not. -/
theorem inputSize_runLexemes_le (call : Caller) (hcall : call.Steady)
    (lexemes : List String) (m : Machine) :
    (m.runLexemes call lexemes).machine.inputSize ≤ m.inputSize := by
  fun_induction runLexemes call lexemes m with
  | case1 m => exact Nat.le_refl _
  | case2 m lexeme rest hbegins depth h => exact Nat.le_refl _
  | case3 m lexeme rest hbegins body left h ih =>
      exact Run.inputSize_andThen_le _ _ _ (Nat.le_of_eq (Run.inputSize_ofChange _ _ _)) (ih _)
  | case4 m lexeme rest hbegins ih =>
      exact Run.inputSize_andThen_le _ _ _ (inputSize_step_le call hcall lexeme m) (ih _)

end Machine

/-- Invoking a procedure at any level does not add to the source. -/
theorem callerAt_steady (level : Nat) : (callerAt level).Steady := by
  induction level with
  | zero =>
      intro name body m
      exact Nat.le_refl _
  | succ level ih =>
      intro name body m
      exact Machine.inputSize_runLexemes_le (callerAt level) ih body
        { m with depth := m.depth + 1 }

namespace Machine

/-- The next lexeme of the source, if there is a source and it has one. -/
def nextLexeme (m : Machine) : Except Fault (Option String) × Machine :=
  match m.input with
  | none => (.error .nothingToRead, m)
  | some t =>
      let (found, rest) := t.next
      (found.mapError .decoding, { m with input := some rest })

/-- A lexeme from the source leaves less of it than there was. -/
theorem inputSize_nextLexeme_lt (m : Machine) (lexeme : String)
    (h : m.nextLexeme.1 = .ok (some lexeme)) : m.nextLexeme.2.inputSize < m.inputSize := by
  unfold nextLexeme at h ⊢
  cases hinput : m.input with
  | none =>
      rw [hinput] at h
      exact absurd h (by simp)
  | some t =>
      rw [hinput] at h
      have hnext : t.next.1 = .ok (some lexeme) := by
        change t.next.1.mapError Fault.decoding = .ok (some lexeme) at h
        revert h
        cases t.next.1 with
        | error e => exact nofun
        | ok found =>
            intro h
            exact congrArg Except.ok (Except.ok.inj h)
      have hlt := t.size_next_lt lexeme hnext
      simpa only [inputSize, hinput, Option.elim_some] using hlt

/-- Captures a procedure from the source and pushes it. -/
def captureInput (m : Machine) (lexeme : String) : Run :=
  match m.input with
  | none => .failed m .nothingToRead
  | some t =>
      let (found, rest) := t.capture 0
      let m := { m with input := some rest }
      match found with
      | .error (.decoding e) => .failed m (.decoding e)
      | .error (.unclosed depth) => .failed m (m.fault openBrace (unclosed depth))
      | .ok body => m.pushCaptured lexeme body

/-- What a lexeme from the source does. A procedure that it begins is captured
    from the source. -/
def accept (call : Caller) (lexeme : String) (m : Machine) : Run :=
  if beginsProcedure lexeme then m.captureInput lexeme else m.step call lexeme

/-- Capturing a procedure from the source does not add to it. -/
theorem inputSize_captureInput_le (m : Machine) (lexeme : String) :
    (m.captureInput lexeme).machine.inputSize ≤ m.inputSize := by
  unfold captureInput
  cases hinput : m.input with
  | none => exact Nat.le_refl _
  | some t =>
      have hcapture := t.size_capture_le 0
      have hsize : m.inputSize = t.size := by simp only [inputSize, hinput, Option.elim_some]
      rw [hsize]
      dsimp only
      split
      · exact hcapture
      · exact hcapture
      · unfold pushCaptured
        rw [Run.inputSize_ofChange]
        exact hcapture

/-- A lexeme from the source does not add to it. -/
theorem inputSize_accept_le (call : Caller) (hcall : call.Steady) (lexeme : String)
    (m : Machine) : (m.accept call lexeme).machine.inputSize ≤ m.inputSize := by
  unfold accept
  split
  · exact inputSize_captureInput_le m lexeme
  · exact inputSize_step_le call hcall lexeme m

/-- What comes of asking the source for one lexeme and acting on it. -/
inductive Advance where
  /-- There was none: the source has ended. -/
  | ended (m : Machine)
  /-- The source could not be read. -/
  | unreadable (m : Machine) (fault : Fault)
  /-- A lexeme and the run it led to. -/
  | accepted (lexeme : String) (run : Run)

/-- Asks the source for one lexeme and acts on it. -/
def advance (m : Machine) : Advance :=
  match m.nextLexeme with
  | (.error fault, rest) => .unreadable rest fault
  | (.ok none, rest) => .ended rest
  | (.ok (some lexeme), rest) =>
      .accepted lexeme (rest.accept (callerAt rest.allowance) lexeme)

/-- Acting on a lexeme leaves less of the source than there was. -/
theorem inputSize_advance_lt {m : Machine} {lexeme : String} {run : Run}
    (h : m.advance = .accepted lexeme run) : run.machine.inputSize < m.inputSize := by
  unfold advance at h
  split at h
  · exact absurd h (by simp)
  · exact absurd h (by simp)
  · next found rest hnext =>
      simp only [Advance.accepted.injEq] at h
      have hlt := m.inputSize_nextLexeme_lt found (by rw [hnext])
      rw [hnext] at hlt
      rw [← h.2]
      exact Nat.lt_of_le_of_lt (inputSize_accept_le _ (callerAt_steady _) found rest) hlt

/-- Runs the source to its end. -/
def runInput (m : Machine) : Run :=
  match _h : m.advance with
  | .ended m => .done m
  | .unreadable m fault => .failed m fault
  | .accepted _ run =>
      match run.fault? with
      | some _ => run
      | none => run.machine.runInput.following run.events
termination_by m.inputSize
decreasing_by exact inputSize_advance_lt _h

/-- The lexemes of the source in turn, each with the run it led to, up to the
    end of the source or the first fault. The lexeme is missing where the
    source could not be read. -/
def trace (m : Machine) : List (Option String × Run) :=
  match _h : m.advance with
  | .ended _ => []
  | .unreadable m fault => [(none, .failed m fault)]
  | .accepted lexeme run =>
      match run.fault? with
      | some _ => [(some lexeme, run)]
      | none => (some lexeme, run) :: run.machine.trace
termination_by m.inputSize
decreasing_by exact inputSize_advance_lt _h

/-- Runs a number of lexemes of the source. The answer besides the run is
    whether the source ended before. -/
def readLexemes (m : Machine) : Nat → Run × Bool
  | 0 => (.done m, false)
  | count + 1 =>
      match m.advance with
      | .ended m => (.done m, true)
      | .unreadable m fault => (.failed m fault, false)
      | .accepted _ run =>
          match run.fault? with
          | some _ => (run, false)
          | none =>
              let (rest, ended) := run.machine.readLexemes count
              (rest.following run.events, ended)

/-- Runs lexemes from outside. -/
def runList (m : Machine) (lexemes : List String) : Run :=
  m.runLexemes (callerAt m.allowance) lexemes

/-- Executes a value from outside under a name. -/
def runValue (m : Machine) (value : Value) (name : String) : Run :=
  let (fresh, next) := value.refresh m.nextIdentity
  let m := { m with nextIdentity := next }
  m.execute (callerAt m.allowance) fresh name

/-- Invokes an operator from outside. -/
def runOperator (m : Machine) (op : Operator) : Run :=
  m.invoke (callerAt m.allowance) op

end Machine

end PathScript
