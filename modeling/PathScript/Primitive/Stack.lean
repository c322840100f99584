import PathScript.State

/-!
# Operand Stack, Arithmetic and Comparison

The operators whose work is on the operand stack. Each is a function on the
list of operands, the top first; only those that make the stack higher look at
the limit.

An operator that finds operands it cannot use says so and changes nothing:
too few of them come before a wrong type, and a wrong type before a value out
of range. Division is the exception, as it looks for a zero divisor first.

## Main definitions

* `Operands.arithmetic`, `Operands.divide`, `Operands.negate`: Arithmetic.
* `Operands.sameness`, `Operands.comparison`, `Operands.complement`:
  Comparison and negation.
* `Operands.rotate`: Turning a list round.
* `Operands.exchange`, `Operands.drop`, `Operands.roll`: Rearranging.
* `State.duplicate`, `State.countOperands`: Making the stack higher.
-/

namespace PathScript

namespace Operands

/-- Replaces two numbers by the result of an operation, which has to be
    finite. -/
def arithmetic (operation : Binary64 → Binary64 → Binary64) :
    List Cell → Except Complaint (List Cell)
  | ⟨.real y, _⟩ :: ⟨.real x, _⟩ :: rest =>
      if (operation x y).isFinite then .ok (.of (.real (operation x y)) :: rest)
      else .error (.because .rangeCheck "result out of range")
  | operands => .error (.operands 2 operands)

/-- Replaces two numbers by their quotient. A zero divisor is refused whatever
    is to be divided. -/
def divide : List Cell → Except Complaint (List Cell)
  | ⟨.real y, object?⟩ :: x :: rest =>
      if y.eq (.zero false) then .error (.because .rangeCheck "division by zero")
      else arithmetic Binary64.div (⟨.real y, object?⟩ :: x :: rest)
  | operands => arithmetic Binary64.div operands

/-- Replaces a number by the one of opposite sign. -/
def negate : List Cell → Except Complaint (List Cell)
  | ⟨.real x, _⟩ :: rest => .ok (.of (.real x.neg) :: rest)
  | operands => .error (.operands 1 operands)

/-- Replaces two values by whether they are the same, as `answer` has it. -/
def sameness (answer : Bool → Bool) : List Cell → Except Complaint (List Cell)
  | y :: x :: rest => .ok (.of (.bool (answer (x.value.identical y.value))) :: rest)
  | operands => .error (.operands 2 operands)

/-- Replaces two numbers by whether they stand in a relation. -/
def comparison (relation : Binary64 → Binary64 → Bool) :
    List Cell → Except Complaint (List Cell)
  | ⟨.real y, _⟩ :: ⟨.real x, _⟩ :: rest => .ok (.of (.bool (relation x y)) :: rest)
  | operands => .error (.operands 2 operands)

/-- Replaces a truth value by the other one. -/
def complement : List Cell → Except Complaint (List Cell)
  | ⟨.bool b, _⟩ :: rest => .ok (.of (.bool (!b)) :: rest)
  | operands => .error (.operands 1 operands)

/-- Swaps the two top values. -/
def exchange : List Cell → Except Complaint (List Cell)
  | y :: x :: rest => .ok (x :: y :: rest)
  | operands => .error (.operands 2 operands)

/-- Takes the top value off. -/
def drop : List Cell → Except Complaint (List Cell)
  | _ :: rest => .ok rest
  | operands => .error (.operands 1 operands)

/-- A list turned round: its first `count` members come last. -/
def rotate {α : Type} (count : Nat) (items : List α) : List α :=
  items.drop count ++ items.take count

/-- Turns the top `n` values round by `j` places, so that with a positive `j`
    the top ones go to the bottom of the group. Both numbers have to be
    integers. -/
def roll : List Cell → Except Complaint (List Cell)
  | ⟨.real j, _⟩ :: ⟨.real n, _⟩ :: rest =>
      match n.toInt?, j.toInt? with
      | some n, some j =>
          if n < 0 then .error (.plain .rangeCheck)
          else if (rest.length : Int) < n then .error (.plain .stackUnderflow)
          else .ok (rotate (j % n).toNat (rest.take n.toNat) ++ rest.drop n.toNat)
      | _, _ => .error (.plain .typeMismatch)
  | operands => .error (.operands 2 operands)

end Operands

namespace State

/-- The state with its operands changed by a function that may refuse. -/
def onOperands (change : List Cell → Except Complaint (List Cell)) (s : State) :
    Except Complaint State :=
  (change s.operands).map fun operands => { s with operands := operands }

/-- Pushes a copy of the top value. -/
def duplicate (limits : Settings) (s : State) : Except Complaint State :=
  match s.operands with
  | cell :: _ => s.push? limits cell.value
  | [] => .error (.plain .stackUnderflow)

/-- Pushes the height of the operand stack. -/
def countOperands (limits : Settings) (s : State) : Except Complaint State :=
  s.push? limits (.real (.ofInt s.operands.length))

/-- Takes every operand off and forgets the open brackets. -/
def clear (s : State) : State := { s with operands := [], marks := [] }

end State

end PathScript
