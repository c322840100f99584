import PathScript.Primitive.Definition
import PathScript.Primitive.Graphics
import PathScript.Primitive.Stack

/-!
# What the Primitive Operators Do

Each primitive operator as a function on the state: it either completes or
objects, and an operator that objects has changed nothing.

Three operators are accepted and do nothing at all.

## Main definitions

* `Primitive.perform`: What a primitive operator does.
-/

namespace PathScript

namespace Primitive

/-- What a primitive operator does. -/
def perform (limits : Settings) (p : Primitive) (s : State) : Except Complaint State :=
  match p with
  | .setgray => s.dropGray
  | .setrgbcolor => s.dropColor
  | .closepath => .ok s.closePath
  | .curveto => s.curveTo
  | .lineto => s.lineTo
  | .moveto => s.moveTo
  | .newpath => .ok s.dropPath
  | .clip => .ok s
  | .eofill => .ok s.dropPath
  | .fill => .ok s.paint
  | .stroke => .ok s.paint
  | .length => .ok s
  | .add => s.onOperands (Operands.arithmetic Binary64.add)
  | .div => s.onOperands Operands.divide
  | .mul => s.onOperands (Operands.arithmetic Binary64.mul)
  | .neg => s.onOperands Operands.negate
  | .sub => s.onOperands (Operands.arithmetic Binary64.sub)
  | .eq => s.onOperands (Operands.sameness id)
  | .ge => s.onOperands (Operands.comparison fun x y => y.le x)
  | .gt => s.onOperands (Operands.comparison fun x y => y.lt x)
  | .le => s.onOperands (Operands.comparison Binary64.le)
  | .lt => s.onOperands (Operands.comparison Binary64.lt)
  | .ne => s.onOperands (Operands.sameness (! ·))
  | .not => s.onOperands Operands.complement
  | .clear => .ok s.clear
  | .count => s.countOperands limits
  | .dup => s.duplicate limits
  | .exch => s.onOperands Operands.exchange
  | .pop => s.onOperands Operands.drop
  | .roll => s.onOperands Operands.roll
  | .concat => s.concatenate
  | .matrix => s.pushIdentity limits
  | .grestore => s.restore
  | .gsave => s.save limits
  | .setlinecap => s.setLineCap
  | .setlinejoin => s.setLineJoin
  | .setlinewidth => s.setLineWidth
  | .setmiterlimit => s.setMiterLimit
  | .bind => .ok s
  | .define => s.define
  | .load => s.load

end Primitive

end PathScript
