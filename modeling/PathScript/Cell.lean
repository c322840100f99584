import PathScript.Value

/-!
# Cells

What holds a value: a place on the operand stack, or a name.

Two cells may hold one object, or two objects that are alike. The difference
shows in one situation only. A definition wraps a value that cannot be invoked
in a literal procedure, and two literal procedures are the same if they wrap
one object. A program by itself never has one such object in two cells, as
whatever repeats a value makes a copy. A caller can bring it about by binding
a name to a value that cannot be invoked: each time the name is loaded, it is
the object itself that is handed out.

A cell therefore remembers which object it holds if a caller has bound it.
Where nothing is remembered, the object is in no other cell, or it can be
invoked and no definition wraps it.

## Main definitions

* `Cell`: A value and the object it is, if that is remembered.
* `Cell.of`: A cell with an object of its own.
-/

namespace PathScript

/-- A place that holds a value, and the object it is if it may be in other
    places as well. -/
structure Cell where
  value : Value
  object? : Option Identity

namespace Cell

/-- A cell with an object of its own. -/
def of (value : Value) : Cell := ⟨value, none⟩

end Cell

end PathScript
