import PathScript.Primitive.Action
import PathScript.Primitive.Definition
import PathScript.Primitive.Graphics
import PathScript.Primitive.Stack

/-!
# The Steps of the Primitive Operators

What each primitive operator does, in the order in which it does it: the
operands it looks at, what it objects to, what it computes, and what it then
changes. These are the operators that a machine runs.

The order of the steps is the point. An operator that changes something and
then objects leaves the change behind, and nothing in the definition of an
action prevents that. Matrices are multiplied before the map in force is
replaced, points are mapped before their coordinates are taken off, and a
value is bound before the operands of the definition go.

Operators of one family share their steps and differ in a function or a
number.

## Main definitions

* `Action.twoNumbers`, `Action.numbersOnTop`: Operands that are numbers.
* `Action.arithmetic`, `Action.divide`, `Action.comparison`, `Action.roll`:
  The operand stack.
* `Action.define`, `Action.load`: Definitions.
* `Action.addSegment`, `Action.paint`, `Action.concatenate`,
  `Action.setStyle`: Graphics.
* `Action.takeCondition`: The operands of a conditional.
* `Primitive.steps`: The steps of a primitive operator.
-/

namespace PathScript

namespace Action

/-- The two numbers on top, the lower one first. -/
def twoNumbers : Action (Binary64 × Binary64) := do
  need 2
  let y ← typed Value.real? 0
  let x ← typed Value.real? 1
  return (x, y)

/-- Replaces two numbers by the result of an operation, which has to be
    finite. -/
def arithmetic (operation : Binary64 → Binary64 → Binary64) : Action Unit := do
  let (x, y) ← twoNumbers
  let result := operation x y
  unless result.isFinite do throw (.because .rangeCheck "result out of range")
  takeOff 1
  put 0 (.of (.real result))

/-- Refuses a zero on top of another operand. -/
def refuseZero : Action Unit := do
  match (← get).operands with
  | ⟨.real y, _⟩ :: _ :: _ =>
      if y.eq (.zero false) then throw (.because .rangeCheck "division by zero")
  | _ => return ()

/-- Replaces two numbers by their quotient. -/
def divide : Action Unit := do
  refuseZero
  arithmetic Binary64.div

/-- Replaces a number by the one of opposite sign. -/
def negate : Action Unit := do
  let x ← onTop Value.real?
  put 0 (.of (.real x.neg))

/-- Replaces two values by whether they are the same, as `answer` has it. -/
def sameness (answer : Bool → Bool) : Action Unit := do
  need 2
  let y ← operand 0
  let x ← operand 1
  takeOff 1
  put 0 (.of (.bool (answer (x.value.identical y.value))))

/-- Replaces two numbers by whether they stand in a relation. -/
def comparison (relation : Binary64 → Binary64 → Bool) : Action Unit := do
  let (x, y) ← twoNumbers
  takeOff 1
  put 0 (.of (.bool (relation x y)))

/-- Replaces a truth value by the other one. -/
def complement : Action Unit := do
  let b ← onTop Value.bool?
  put 0 (.of (.bool (!b)))

/-- Swaps the two top values. -/
def exchange : Action Unit := do
  need 2
  let y ← operand 0
  let x ← operand 1
  put 0 x
  put 1 y

/-- Takes the top value off. -/
def discard : Action Unit := do
  need 1
  takeOff 1

/-- A number as an integer. -/
def integer (x : Binary64) : Action Int := do
  match x.toInt? with
  | some n => return n
  | none => throw (.plain .typeMismatch)

/-- Turns the top `n` values round by `j` places, where there is anything to turn. -/
def turn (n j : Int) : Action Unit := do
  if n ≠ 0 then
    let turns := (j % n).toNat
    if turns ≠ 0 then
      modify fun s => { s with
        operands := Operands.rotate turns (s.operands.take n.toNat) ++ s.operands.drop n.toNat }

/-- Turns values round, as many and by as many places as the two numbers say. -/
def roll : Action Unit := do
  let (x, y) ← twoNumbers
  let j ← integer y
  let n ← integer x
  if n < 0 then throw (.plain .rangeCheck)
  if ((← get).operands.length : Int) - 2 < n then throw (.plain .stackUnderflow)
  takeOff 1
  takeOff 1
  turn n j

/-- Pushes a copy of the top value. -/
def duplicate (limits : Settings) : Action Unit := do
  need 1
  room limits
  let cell ← operand 0
  push cell.value

/-- Pushes the height of the operand stack. -/
def countOperands (limits : Settings) : Action Unit := do
  room limits
  push (.real (.ofInt (← get).operands.length))

/-- Takes every operand off and forgets the open brackets. -/
def clear : Action Unit := do
  modify fun s => { s with operands := [] }
  modify fun s => { s with marks := [] }

/-- The cell to bind for a cell: itself if it can be invoked, and otherwise a new
    literal procedure that pushes what it holds. -/
def invocable (cell : Cell) : Action Cell := do
  if cell.value.isExecutable then return cell
  else
    let (procedure, next) := (← get).wrap cell
    modify fun s => { s with nextIdentity := next }
    return .of procedure

/-- Binds the name below the top value to that value. -/
def define : Action Unit := do
  let key ← belowTop Value.name?
  let cell ← invocable (← operand 0)
  modify fun s => { s with definitions := s.definitions.insert key cell }
  takeOff 1
  takeOff 1

/-- Replaces the name on top by what it is bound to. -/
def load : Action Unit := do
  let key ← onTop Value.name?
  match (← get).lookup? key with
  | some cell => put 0 cell
  | none => throw (.because .undefined key)

/-- The device coordinates of the point whose second coordinate is at a place and
    whose first is below it. -/
def point (place : Nat) : Action Point := do
  let x ← typed Value.real? (place + 1)
  let y ← typed Value.real? place
  match (← get).graphics.ctm.image? ⟨x, y⟩ with
  | some p => return p
  | none => throw .undefinedArithmetic

/-- Looks whether there are so many operands and whether they are numbers. -/
def numbersOnTop (count : Nat) : Action Unit := do
  need count
  numbers count

/-- Adds an instruction with so many coordinates to the path. -/
def addSegment (count : Nat) (segment : Action Instruction) : Action Unit := do
  numbersOnTop count
  let i ← segment
  takeOff count
  onGraphics (·.extend i)

/-- Moves the pen. -/
def moveTo : Action Unit := addSegment 2 do
  let p ← point 0
  return .move p

/-- Adds a straight line to the path. -/
def lineTo : Action Unit := addSegment 2 do
  let p ← point 0
  return .line p

/-- Adds a cubic curve to the path. -/
def curveTo : Action Unit := addSegment 6 do
  let p ← point 4
  let q ← point 2
  let r ← point 0
  return .cubic p q r

/-- Repeats the first instruction of the path at its end. -/
def closePath : Action Unit := do
  match (← get).graphics.path with
  | first :: _ => onGraphics (·.extend first)
  | [] => return ()

/-- Empties the path. -/
def dropPath : Action Unit := onGraphics (·.clearPath)

/-- Moves the path to the end of the drawing. -/
def paint : Action Unit := do
  modify fun s => { s with drawing := s.drawing ++ s.graphics.path }
  dropPath

/-- Keeps the graphics state to return to. -/
def save (limits : Settings) : Action Unit := do
  unless underLimit limits.maxSaved (← get).saved.length do throw (.plain .limitCheck)
  modify fun s => { s with saved := s.graphics :: s.saved }

/-- Returns to the graphics state kept last. -/
def restore : Action Unit := do
  match (← get).saved with
  | g :: saved =>
      modify fun s => { s with saved := saved }
      onGraphics fun _ => g
  | [] => throw (.because .stackUnderflow "no saved graphics state")

/-- The map that the items of an array describe. -/
def matrix (items : List Value) : Action Matrix := do
  if items.length ≠ 6 then
    throw (.because .rangeCheck ("matrix has " ++ toString items.length ++ " elements"))
  match (items.mapM Value.real?).bind Matrix.ofList? with
  | some m => return m
  | none => throw (.plain .typeMismatch)

/-- Puts a map before the one in force. -/
def concatenate : Action Unit := do
  let m ← matrix (← onTop Value.items?)
  match m.mul? (← get).graphics.ctm with
  | some ctm =>
      onGraphics fun g => { g with ctm := ctm }
      takeOff 1
  | none => throw .undefinedArithmetic

/-- Pushes the map that moves nothing, as a new array. -/
def pushIdentity (limits : Settings) : Action Unit := do
  room limits
  modify (·.pushArray (Matrix.identity.toList.map .real))

/-- Takes a number off that chooses a shape. -/
def chooseStyle {α : Type} (ofCode? : Int → Option α) : Action α := do
  let x ← onTop Value.real?
  let style ← ofExcept (State.styleChoice ofCode? x)
  takeOff 1
  return style

/-- Sets a shape that a number chooses. -/
def setStyle {α : Type} (ofCode? : Int → Option α) (set : α → GraphicsState → GraphicsState) :
    Action Unit := do
  let style ← chooseStyle ofCode?
  onGraphics (set style)

/-- Sets the shape at the ends of lines. -/
def setLineCap : Action Unit := setStyle LineCap.ofCode? fun cap g => { g with lineCap := cap }

/-- Sets the shape at the corners of lines. -/
def setLineJoin : Action Unit := setStyle LineJoin.ofCode? fun join g => { g with lineJoin := join }

/-- Sets the width of lines, its sign dropped. -/
def setLineWidth : Action Unit := do
  let x ← onTop Value.real?
  onGraphics fun g => { g with lineWidth := x.abs }
  takeOff 1

/-- Sets the limit on mitered corners, which may not be below one. -/
def setMiterLimit : Action Unit := do
  let x ← onTop Value.real?
  if x.lt .one then throw (.plain .rangeCheck)
  onGraphics fun g => { g with miterLimit := x }
  takeOff 1

/-- Takes numbers off that nothing is done with. -/
def dropNumbers (count : Nat) : Action Unit := do
  numbersOnTop count
  takeOff count

/-- Takes the operands of a conditional off: the value to execute, if the condition
    holds. -/
def takeCondition : Action (Option Value) := do
  let b ← belowTop Value.bool?
  let target ← operand 0
  unless target.value.isExecutable do throw (.plain .typeMismatch)
  takeOff 1
  takeOff 1
  return if b then some target.value else none

end Action

namespace Primitive

/-- The steps of a primitive operator. -/
def steps (limits : Settings) (p : Primitive) : Action Unit :=
  match p with
  | .setgray => .dropNumbers 1
  | .setrgbcolor => .dropNumbers 3
  | .closepath => .closePath
  | .curveto => .curveTo
  | .lineto => .lineTo
  | .moveto => .moveTo
  | .newpath => .dropPath
  | .clip => return ()
  | .eofill => .dropPath
  | .fill => .paint
  | .stroke => .paint
  | .length => return ()
  | .add => .arithmetic Binary64.add
  | .div => .divide
  | .mul => .arithmetic Binary64.mul
  | .neg => .negate
  | .sub => .arithmetic Binary64.sub
  | .eq => .sameness id
  | .ge => .comparison fun x y => y.le x
  | .gt => .comparison fun x y => y.lt x
  | .le => .comparison Binary64.le
  | .lt => .comparison Binary64.lt
  | .ne => .sameness (! ·)
  | .not => .complement
  | .clear => .clear
  | .count => .countOperands limits
  | .dup => .duplicate limits
  | .exch => .exchange
  | .pop => .discard
  | .roll => .roll
  | .concat => .concatenate
  | .matrix => .pushIdentity limits
  | .grestore => .restore
  | .gsave => .save limits
  | .setlinecap => .setLineCap
  | .setlinejoin => .setLineJoin
  | .setlinewidth => .setLineWidth
  | .setmiterlimit => .setMiterLimit
  | .bind => return ()
  | .define => .define
  | .load => .load

end Primitive

end PathScript
