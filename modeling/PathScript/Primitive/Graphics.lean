import PathScript.State

/-!
# Graphics State, Paths and Painting

The operators that build paths, paint them and set how lines look.

Points are mapped to the device when they are added to the path. If the map
has no value at a point the operator is refused, and the operands stay.
Painting moves the path to the end of the drawing and empties it; filling by
the even-odd rule is not supported and drops the path. Colours are checked
and dropped.

## Main definitions

* `State.moveTo`, `State.lineTo`, `State.curveTo`, `State.closePath`,
  `State.dropPath`: Building paths.
* `State.paint`: Painting.
* `State.save`, `State.restore`: Keeping graphics states.
* `State.concatenate`, `State.pushIdentity`: Maps.
* `State.setLineCap`, `State.setLineJoin`, `State.setLineWidth`,
  `State.setMiterLimit`: The style of lines.
* `State.dropGray`, `State.dropColor`: Colours.
-/

namespace PathScript

namespace State

/-- The device coordinates of a point. -/
def toDevice (s : State) (x y : Binary64) : Except Complaint Point :=
  match s.graphics.ctm.image? ⟨x, y⟩ with
  | some p => .ok p
  | none => .error .undefinedArithmetic

/-- The state with other operands and an instruction added to its path. -/
def extendPath (s : State) (rest : List Cell) (i : Instruction) : State :=
  { s with operands := rest, graphics := s.graphics.extend i }

/-- Moves the pen. -/
def moveTo (s : State) : Except Complaint State :=
  match s.operands with
  | ⟨.real y, _⟩ :: ⟨.real x, _⟩ :: rest => do
      let p ← s.toDevice x y
      return s.extendPath rest (.move p)
  | operands => .error (.operands 2 operands)

/-- Adds a straight line to the path. -/
def lineTo (s : State) : Except Complaint State :=
  match s.operands with
  | ⟨.real y, _⟩ :: ⟨.real x, _⟩ :: rest => do
      let p ← s.toDevice x y
      return s.extendPath rest (.line p)
  | operands => .error (.operands 2 operands)

/-- Adds a cubic curve to the path. -/
def curveTo (s : State) : Except Complaint State :=
  match s.operands with
  | ⟨.real y₃, _⟩ :: ⟨.real x₃, _⟩ :: ⟨.real y₂, _⟩ :: ⟨.real x₂, _⟩
      :: ⟨.real y₁, _⟩ :: ⟨.real x₁, _⟩ :: rest => do
      let p ← s.toDevice x₁ y₁
      let q ← s.toDevice x₂ y₂
      let r ← s.toDevice x₃ y₃
      return s.extendPath rest (.cubic p q r)
  | operands => .error (.operands 6 operands)

/-- Repeats the first instruction of the path at its end. -/
def closePath (s : State) : State :=
  match s.graphics.path with
  | first :: _ => { s with graphics := s.graphics.extend first }
  | [] => s

/-- Empties the path. -/
def dropPath (s : State) : State := { s with graphics := s.graphics.clearPath }

/-- Moves the path to the end of the drawing. -/
def paint (s : State) : State :=
  { s with drawing := s.drawing ++ s.graphics.path, graphics := s.graphics.clearPath }

/-- Keeps the graphics state to return to. -/
def save (limits : Settings) (s : State) : Except Complaint State :=
  if underLimit limits.maxSaved s.saved.length then
    .ok { s with saved := s.graphics :: s.saved }
  else .error (.plain .limitCheck)

/-- Returns to the graphics state kept last. -/
def restore (s : State) : Except Complaint State :=
  match s.saved with
  | g :: saved => .ok { s with graphics := g, saved := saved }
  | [] => .error (.because .stackUnderflow "no saved graphics state")

/-- Puts a map before the one in force. The map is an array of six numbers. -/
def concatenate (s : State) : Except Complaint State :=
  match s.operands with
  | ⟨.array _ items, _⟩ :: rest =>
      if items.length ≠ 6 then
        .error (.because .rangeCheck ("matrix has " ++ toString items.length ++ " elements"))
      else
        match (items.mapM Value.real?).bind Matrix.ofList? with
        | none => .error (.plain .typeMismatch)
        | some m =>
            match m.mul? s.graphics.ctm with
            | none => .error .undefinedArithmetic
            | some ctm => .ok { s with operands := rest, graphics := { s.graphics with ctm := ctm } }
  | operands => .error (.operands 1 operands)

/-- Pushes the map that moves nothing, as a new array. -/
def pushIdentity (limits : Settings) (s : State) : Except Complaint State :=
  if s.hasRoom limits then .ok (s.pushArray (Matrix.identity.toList.map .real))
  else .error (.plain .stackOverflow)

/-- The shape that a number chooses, its fraction dropped. -/
def styleChoice {α : Type} (ofCode? : Int → Option α) (x : Binary64) : Except Complaint α :=
  let refuse (found : String) : Except Complaint α :=
    .error (.because .rangeCheck (found ++ " not in 0..2"))
  match x.truncate? with
  | none => refuse x.text
  | some n =>
      match ofCode? n with
      | some style => .ok style
      | none => refuse (toString n)

/-- Sets the shape at the ends of lines. -/
def setLineCap (s : State) : Except Complaint State :=
  match s.operands with
  | ⟨.real x, _⟩ :: rest => do
      let cap ← styleChoice LineCap.ofCode? x
      return { s with operands := rest, graphics := { s.graphics with lineCap := cap } }
  | operands => .error (.operands 1 operands)

/-- Sets the shape at the corners of lines. -/
def setLineJoin (s : State) : Except Complaint State :=
  match s.operands with
  | ⟨.real x, _⟩ :: rest => do
      let join ← styleChoice LineJoin.ofCode? x
      return { s with operands := rest, graphics := { s.graphics with lineJoin := join } }
  | operands => .error (.operands 1 operands)

/-- Sets the width of lines, its sign dropped. -/
def setLineWidth (s : State) : Except Complaint State :=
  match s.operands with
  | ⟨.real x, _⟩ :: rest =>
      .ok { s with operands := rest, graphics := { s.graphics with lineWidth := x.abs } }
  | operands => .error (.operands 1 operands)

/-- Sets the limit on mitered corners, which may not be below one. -/
def setMiterLimit (s : State) : Except Complaint State :=
  match s.operands with
  | ⟨.real x, _⟩ :: rest =>
      if x.lt .one then .error (.plain .rangeCheck)
      else .ok { s with operands := rest, graphics := { s.graphics with miterLimit := x } }
  | operands => .error (.operands 1 operands)

/-- Drops a gray level. -/
def dropGray (s : State) : Except Complaint State :=
  match s.operands with
  | ⟨.real _, _⟩ :: rest => .ok { s with operands := rest }
  | operands => .error (.operands 1 operands)

/-- Drops the three parts of a colour. -/
def dropColor (s : State) : Except Complaint State :=
  match s.operands with
  | ⟨.real _, _⟩ :: ⟨.real _, _⟩ :: ⟨.real _, _⟩ :: rest => .ok { s with operands := rest }
  | operands => .error (.operands 3 operands)

end State

end PathScript
