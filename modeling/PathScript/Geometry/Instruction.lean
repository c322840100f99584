import PathScript.Geometry.Matrix
import PathScript.Number.Text
import PathScript.Text.Quoted

/-!
# Drawing Instructions

What a program draws, reduced to four instructions: move the pen, draw a
straight line, draw a cubic curve, and the mark that ends a drawing. Points
are in device coordinates; a map applies when a path is built and never
afterwards.

## Main definitions

* `Instruction`: One drawing instruction.
* `Instruction.Kind`: What an instruction does, apart from where.
* `Instruction.build`: An instruction from a kind and a list of points.
* `Instruction.text`: The written form, one line of a drawing.
-/

namespace PathScript

/-- One drawing instruction in device coordinates. A cubic curve has two
    control points and an end point. -/
inductive Instruction where
  | move (target : Point)
  | line (target : Point)
  | cubic (first second target : Point)
  | finish
  deriving DecidableEq

namespace Instruction

/-- What an instruction does, apart from where. -/
inductive Kind where
  | move
  | line
  | cubic
  | finish
  deriving DecidableEq

/-- The name an instruction is written with. -/
def Kind.name : Kind → String
  | .move => "MOVE"
  | .line => "LINE"
  | .cubic => "CUBIC"
  | .finish => "END"

/-- The kind with a given name. -/
def Kind.ofName? (name : String) : Option Kind :=
  [Kind.move, .line, .cubic, .finish].find? fun kind => kind.name == name

/-- How many points an instruction of a kind has. -/
def Kind.pointCount : Kind → Nat
  | .move => 1
  | .line => 1
  | .cubic => 3
  | .finish => 0

/-- The kind of an instruction. -/
def kind : Instruction → Kind
  | .move _ => .move
  | .line _ => .line
  | .cubic _ _ _ => .cubic
  | .finish => .finish

/-- The points of an instruction in order. -/
def points : Instruction → List Point
  | .move p => [p]
  | .line p => [p]
  | .cubic p q r => [p, q, r]
  | .finish => []

/-- The instruction of a kind with the given points, if their number is
    right. -/
def ofPoints? : Kind → List Point → Option Instruction
  | .move, [p] => some (.move p)
  | .line, [p] => some (.line p)
  | .cubic, [p, q, r] => some (.cubic p q r)
  | .finish, [] => some .finish
  | _, _ => none

/-- An instruction is determined by its kind and its points. -/
@[simp]
theorem ofPoints?_points (i : Instruction) : ofPoints? i.kind i.points = some i := by
  cases i <;> rfl

/-- Why a kind and points make no instruction. -/
inductive BuildError where
  | unknownKind (name : String)
  | pointCount (kind : Kind) (found : Nat)

/-- The wording of a refusal to build an instruction. -/
def BuildError.message : BuildError → String
  | .unknownKind name => quoted name ++ " is not a valid Kind"
  | .pointCount kind found =>
      kind.name ++ " takes " ++ toString kind.pointCount ++ " point(s), got " ++ toString found

/-- An instruction from the name of its kind and its points. The kind is looked
    at first. -/
def build (name : String) (points : List Point) : Except BuildError Instruction :=
  match Kind.ofName? name with
  | none => .error (.unknownKind name)
  | some kind =>
      match ofPoints? kind points with
      | none => .error (.pointCount kind points.length)
      | some i => .ok i

/-- The written form: the name and then the coordinates, divided by blanks. -/
def text (i : Instruction) : String :=
  " ".intercalate (i.kind.name :: i.points.flatMap fun p => [p.x.compact, p.y.compact])

end Instruction

end PathScript
