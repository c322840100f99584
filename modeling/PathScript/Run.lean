import PathScript.Primitive.Perform
import PathScript.Tokenizer

/-!
# Machines and Runs

A machine is a state together with what surrounds it: the settings, the source
still to be read, and how many procedures are running.

A run is what comes of letting a machine work for a while: the machine as it
ended up, the fault that stopped it if one did, and the events on the way. A
run that fails still has a machine, because a failure leaves everything done
before it in place. Events do not influence anything; they are there for
whoever wants to follow what happened.

## Main definitions

* `Machine`: A state and what surrounds it.
* `Machine.beginning`, `Machine.start`: The machine at the beginning of a source.
* `Event`: What can be observed of a run.
* `Run`: A machine after some work, with fault and events.
* `Run.andThen`: Going on unless a fault has occurred.
* `Machine.inputSize`: A bound on the source that is left.
-/

namespace PathScript

/-- A state and what surrounds it. -/
structure Machine extends State where
  settings : Settings
  /-- The source still to be read, unless the machine has none. -/
  input : Option Tokenizer
  /-- The number of procedures that are running. -/
  depth : Nat

/-- A program as it is handed over: as text, or as bytes still to be
    decoded. -/
inductive Source where
  | text (program : String)
  | bytes (program : List UInt8)

/-- The tokenizer at the beginning of a source. -/
def Source.tokenizer (settings : Settings) : Source → Tokenizer
  | .text program => .ofText program
  | .bytes program => .ofBytes settings.encoding program

namespace Machine

/-- The machine with everything still to be read. -/
def beginning (settings : Settings) (input : Tokenizer) : Machine where
  toState := .initial
  settings := settings
  input := some input
  depth := 0

/-- The machine at the beginning of a source. -/
def start (settings : Settings) (source : Source) : Machine :=
  beginning settings (source.tokenizer settings)

/-- The line being read, if there is a source. -/
def line? (m : Machine) : Option Nat := m.input.map (·.line)

/-- The fault that a complaint about a command amounts to at this point. -/
def fault (m : Machine) (command : String) (c : Complaint) : Fault :=
  c.toFault command (m.line?.map Int.ofNat)

/-- A bound on the source that is left. -/
def inputSize (m : Machine) : Nat := m.input.elim 0 Tokenizer.size

end Machine

/-- What can be observed of a run. -/
inductive Event where
  /-- An operator was invoked. -/
  | invoked (op : Operator)
  /-- A procedure was entered under a name. -/
  | entered (name : String) (body : List String)
  /-- A gray level was dropped. -/
  | grayDropped (level : Binary64)
  /-- A colour was dropped. -/
  | colorDropped (red green blue : Binary64)
  /-- A path was painted by an operator. -/
  | painted (p : Primitive) (path : List Instruction)
  /-- A path was dropped where painting it is not supported. -/
  | paintDropped (path : List Instruction)
  /-- Lines were passed over up to a marker, the last of them the given
      line. -/
  | skipped (count : Nat) (marker : String) (line : Nat)
  deriving DecidableEq

/-- A machine after some work, the fault that stopped it if one did, and what
    could be observed, in order. -/
structure Run where
  machine : Machine
  fault? : Option Fault
  events : List Event

namespace Run

/-- A run that does nothing more. -/
def done (m : Machine) : Run := ⟨m, none, []⟩

/-- A run stopped by a fault. -/
def failed (m : Machine) (fault : Fault) : Run := ⟨m, some fault, []⟩

/-- A run with an event before it. -/
def after (event : Event) (r : Run) : Run := { r with events := event :: r.events }

/-- A run with the events of what came before it. -/
def following (events : List Event) (r : Run) : Run := { r with events := events ++ r.events }

/-- Going on with a machine, unless a fault has occurred. -/
def andThen (r : Run) (next : Machine → Run) : Run :=
  match r.fault? with
  | some _ => r
  | none => (next r.machine).following r.events

/-- The run of a command that changes the state or objects. -/
def ofChange (m : Machine) (command : String) : Except Complaint State → Run
  | .ok s => done { m with toState := s }
  | .error c => failed m (m.fault command c)

/-- A change of state leaves the source alone. -/
@[simp]
theorem inputSize_ofChange (m : Machine) (command : String) (r : Except Complaint State) :
    (ofChange m command r).machine.inputSize = m.inputSize := by
  cases r <;> rfl

/-- An event does not change the machine. -/
@[simp]
theorem machine_after (event : Event) (r : Run) : (r.after event).machine = r.machine := rfl

/-- Earlier events do not change the machine. -/
@[simp]
theorem machine_following (events : List Event) (r : Run) :
    (r.following events).machine = r.machine := rfl

/-- If neither part of a run adds to the source, the whole does not. -/
theorem inputSize_andThen_le (r : Run) (next : Machine → Run) (bound : Nat)
    (hr : r.machine.inputSize ≤ bound)
    (hnext : (next r.machine).machine.inputSize ≤ r.machine.inputSize) :
    (r.andThen next).machine.inputSize ≤ bound := by
  unfold andThen
  split
  · exact hr
  · exact Nat.le_trans hnext hr

end Run

end PathScript
