import PathScript.State

/-!
# Definitions

The operators that bind names and look them up. A value that cannot be invoked
is bound as a literal procedure that pushes it, so that every definition can
be invoked.

## Main definitions

* `State.wrap`: The literal procedure that pushes a value.
* `State.define`: Binding a name.
* `State.load`: Replacing a name by what it is bound to.
-/

namespace PathScript

namespace State

/-- The literal procedure that pushes what a cell holds, and the next identity
    after it. Its own identity is that of the object it wraps. -/
def wrap (s : State) (cell : Cell) : Value × Identity :=
  match cell.object? with
  | some object => (.literal object cell.value, s.nextIdentity)
  | none => (.literal s.nextIdentity cell.value, s.nextIdentity + 1)

/-- Binds the name below the top value to that value. -/
def define (s : State) : Except Complaint State :=
  match s.operands with
  | cell :: ⟨.name key, _⟩ :: rest =>
      if cell.value.isExecutable then
        .ok { s with operands := rest, definitions := s.definitions.insert key cell }
      else
        let (procedure, next) := s.wrap cell
        .ok { s with
          operands := rest
          definitions := s.definitions.insert key (.of procedure)
          nextIdentity := next }
  | operands => .error (.operands 2 operands)

/-- Replaces the name on top by what it is bound to, the object itself and not
    a copy. -/
def load (s : State) : Except Complaint State :=
  match s.operands with
  | ⟨.name key, _⟩ :: rest =>
      match s.lookup? key with
      | some cell => .ok { s with operands := cell :: rest }
      | none => .error (.because .undefined key)
  | operands => .error (.operands 1 operands)

end State

end PathScript
