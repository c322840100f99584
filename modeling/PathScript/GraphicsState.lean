import PathScript.Geometry.Instruction

/-!
# Graphics States

What a program has set about drawing: the map from its coordinates to the
device, the style of lines, and the path under construction. A program can
save the whole state and return to it, the path included.

The style is kept and can be wrong, in that a program may be refused a value,
but nothing that is drawn depends on it.

## Main definitions

* `LineCap`, `LineJoin`: The shapes at the ends and corners of a line.
* `GraphicsState`: The settings of a drawing.
* `GraphicsState.initial`: The settings a program starts with.
-/

namespace PathScript

/-- The shape at the ends of a line. -/
inductive LineCap where
  | butt
  | round
  | square
  deriving DecidableEq

/-- The number of a shape. -/
def LineCap.code : LineCap → Nat
  | .butt => 0
  | .round => 1
  | .square => 2

/-- The shape with a number. -/
def LineCap.ofCode? : Int → Option LineCap
  | 0 => some .butt
  | 1 => some .round
  | 2 => some .square
  | _ => none

/-- The shape at the corners of a line. -/
inductive LineJoin where
  | miter
  | round
  | bevel
  deriving DecidableEq

/-- The number of a shape. -/
def LineJoin.code : LineJoin → Nat
  | .miter => 0
  | .round => 1
  | .bevel => 2

/-- The shape with a number. -/
def LineJoin.ofCode? : Int → Option LineJoin
  | 0 => some .miter
  | 1 => some .round
  | 2 => some .bevel
  | _ => none

/-- What a program has set about drawing. -/
structure GraphicsState where
  /-- The map from the program's coordinates to the device. -/
  ctm : Matrix
  /-- The path under construction, in device coordinates. -/
  path : List Instruction
  lineWidth : Binary64
  lineCap : LineCap
  lineJoin : LineJoin
  miterLimit : Binary64
  deriving DecidableEq

namespace GraphicsState

/-- The settings a program starts with. -/
def initial : GraphicsState where
  ctm := .identity
  path := []
  lineWidth := .one
  lineCap := .butt
  lineJoin := .miter
  miterLimit := .ofInt 10

/-- The state with an instruction added to its path. -/
def extend (g : GraphicsState) (i : Instruction) : GraphicsState :=
  { g with path := g.path ++ [i] }

/-- The state with an empty path. -/
def clearPath (g : GraphicsState) : GraphicsState := { g with path := [] }

end GraphicsState

end PathScript
