import PathScript.State

/-!
# Acting on the State

How operators go about their work. An action looks at the state, objects to
what it finds, and changes the state, one thing after the other. What was
changed before an objection stays changed: nothing is taken back.

Operands are looked at where they are on the stack and taken off in a step of
its own. A place on the stack is counted from the top, which is place zero.

## Main definitions

* `Action`: Something done to the state step by step.
* `Action.need`, `Action.room`: Looking at the height of the operand stack.
* `Action.operand`, `Action.typed`, `Action.onTop`, `Action.belowTop`: Looking at
  an operand.
* `Action.numbers`: Looking at the types of several operands.
* `Action.takeOff`, `Action.put`, `Action.push`: Changing the operand stack.
* `Action.onGraphics`: Changing the graphics state.
-/

namespace PathScript

/-- Something done to the state step by step. An objection ends it and leaves
    the state as the steps before have made it. -/
abbrev Action (α : Type) := EStateM Complaint State α

namespace Action

/-- Looks whether there are so many operands. -/
def need (count : Nat) : Action Unit := do
  if (← get).operands.length < count then throw (.plain .stackUnderflow)

/-- Looks whether the operand stack has room for one more value. -/
def room (limits : Settings) : Action Unit := do
  unless (← get).hasRoom limits do throw (.plain .stackOverflow)

/-- The operand at a place. -/
def operand (place : Nat) : Action Cell := do
  match (← get).operands[place]? with
  | some cell => return cell
  | none => throw (.plain .stackUnderflow)

/-- What an operand of the right type holds, at a place. -/
def typed {α : Type} (type? : Value → Option α) (place : Nat) : Action α := do
  match type? (← operand place).value with
  | some x => return x
  | none => throw (.plain .typeMismatch)

/-- What the only operand of an operator holds. -/
def onTop {α : Type} (type? : Value → Option α) : Action α := do
  need 1
  typed type? 0

/-- What the lower one of two operands holds. -/
def belowTop {α : Type} (type? : Value → Option α) : Action α := do
  need 2
  typed type? 1

/-- Looks whether the top operands are numbers, the lowest of them first. -/
def numbers : Nat → Action Unit
  | 0 => return ()
  | count + 1 => do
      let _ ← typed Value.real? count
      numbers count

/-- Takes operands off. -/
def takeOff (count : Nat) : Action Unit :=
  modify fun s => { s with operands := s.operands.drop count }

/-- Puts a cell in a place. -/
def put (place : Nat) (cell : Cell) : Action Unit :=
  modify fun s => { s with operands := s.operands.set place cell }

/-- Puts a value on top, whatever the limit. -/
def push (value : Value) : Action Unit := modify (·.push value)

/-- Changes the graphics state. -/
def onGraphics (change : GraphicsState → GraphicsState) : Action Unit :=
  modify fun s => { s with graphics := change s.graphics }

end Action

end PathScript
