import PathScript.Dictionary
import PathScript.Fault
import PathScript.GraphicsState
import PathScript.Settings

/-!
# The State That Operators Act On

The stacks, the definitions and the drawing. What a run has besides, its
source, its settings and how deep it is in procedures, is kept apart, so that
an operator that acts on the state alone visibly cannot touch it.

All stacks are lists with the newest entry first. Paths and drawings are in
the order in which they were drawn.

## Main definitions

* `State`: The state.
* `State.initial`: The state a program starts in.
* `State.lookup?`: What a name is bound to.
* `State.push?`: Pushing a value where the limit on the stack allows it.
-/

namespace PathScript

/-- The stacks, the definitions and the drawing. -/
structure State where
  /-- The operand stack, top first. -/
  operands : List Cell
  /-- The heights of the operand stack at each open bracket, innermost first. -/
  marks : List Nat
  /-- The names the program has defined. -/
  definitions : Dictionary
  graphics : GraphicsState
  /-- The graphics states to return to, newest first. -/
  saved : List GraphicsState
  /-- What has been drawn. -/
  drawing : List Instruction
  /-- The identity of the next array or procedure to be made. -/
  nextIdentity : Identity

namespace State

/-- The state a program starts in. -/
def initial : State where
  operands := []
  marks := []
  definitions := .empty
  graphics := .initial
  saved := []
  drawing := []
  nextIdentity := builtinIdentities

/-- What a name is bound to: the program's own definition, or else what the
    name has built in. -/
def lookup? (s : State) (key : String) : Option Cell :=
  (s.definitions.find? key).orElse fun _ => (builtin? key).map .of

/-- Whether the operand stack has room for one more value. -/
def hasRoom (limits : Settings) (s : State) : Bool :=
  underLimit limits.maxOperands s.operands.length

/-- The state with a value on top of the operand stack, whatever the limit. -/
def push (s : State) (value : Value) : State :=
  { s with operands := .of value :: s.operands }

/-- The state with a value on top of the operand stack, if there is room. -/
def push? (limits : Settings) (s : State) (value : Value) : Except Complaint State :=
  if s.hasRoom limits then .ok (s.push value) else .error (.plain .stackOverflow)

/-- The state with a new array on top of the operand stack, whatever the
    limit. -/
def pushArray (s : State) (items : List Value) : State :=
  { s with
    operands := .of (.array s.nextIdentity items) :: s.operands
    nextIdentity := s.nextIdentity + 1 }

/-- The state with a new procedure on top of the operand stack, if there is
    room. -/
def pushProcedure? (limits : Settings) (s : State) (body : List String) :
    Except Complaint State :=
  if s.hasRoom limits then
    .ok { s with
      operands := .of (.procedure s.nextIdentity body) :: s.operands
      nextIdentity := s.nextIdentity + 1 }
  else .error (.plain .stackOverflow)

/-- The state with values from outside on top of the operand stack, the last
    of them on top. Each gets identities of its own. -/
def receive (s : State) (values : List Value) : State :=
  let (fresh, next) := Value.refreshAll s.nextIdentity values
  { s with operands := fresh.reverse.map .of ++ s.operands, nextIdentity := next }

/-- The state with a name bound to a value from outside, which need not be one
    that can be invoked. -/
def receiveDefinition (s : State) (key : String) (value : Value) : State :=
  let (fresh, next) := value.refresh s.nextIdentity
  { s with
    definitions := s.definitions.insert key ⟨fresh, some next⟩
    nextIdentity := next + 1 }

end State

end PathScript
