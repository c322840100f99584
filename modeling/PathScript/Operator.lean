/-!
# Operators

The built-in operators by name. What each does is said elsewhere; here they
are only told apart.

All but two are *primitive*: they act on the state of the machine alone, and
either complete or leave it as it was. The two others reach further. One reads
on in the source to pass over font definitions, and the conditional runs the
procedure it is given.

## Main definitions

* `Primitive`: The operators that act on the state alone.
* `Operator`: All operators.
* `Operator.name`, `Operator.ofName?`: Their names.

## Theorems

* `Operator.mem_all`: The list of operators is complete.
-/

namespace PathScript

/-- The operators that act on the state alone. -/
inductive Primitive where
  | setgray
  | setrgbcolor
  | closepath
  | curveto
  | lineto
  | moveto
  | newpath
  | clip
  | eofill
  | fill
  | stroke
  | length
  | add
  | div
  | mul
  | neg
  | sub
  | eq
  | ge
  | gt
  | le
  | lt
  | ne
  | not
  | clear
  | count
  | dup
  | exch
  | pop
  | roll
  | concat
  | matrix
  | grestore
  | gsave
  | setlinecap
  | setlinejoin
  | setlinewidth
  | setmiterlimit
  | bind
  | define
  | load
  deriving DecidableEq

namespace Primitive

/-- The name of a primitive operator. -/
def name : Primitive → String
  | .setgray => "setgray"
  | .setrgbcolor => "setrgbcolor"
  | .closepath => "closepath"
  | .curveto => "curveto"
  | .lineto => "lineto"
  | .moveto => "moveto"
  | .newpath => "newpath"
  | .clip => "clip"
  | .eofill => "eofill"
  | .fill => "fill"
  | .stroke => "stroke"
  | .length => "length"
  | .add => "add"
  | .div => "div"
  | .mul => "mul"
  | .neg => "neg"
  | .sub => "sub"
  | .eq => "eq"
  | .ge => "ge"
  | .gt => "gt"
  | .le => "le"
  | .lt => "lt"
  | .ne => "ne"
  | .not => "not"
  | .clear => "clear"
  | .count => "count"
  | .dup => "dup"
  | .exch => "exch"
  | .pop => "pop"
  | .roll => "roll"
  | .concat => "concat"
  | .matrix => "matrix"
  | .grestore => "grestore"
  | .gsave => "gsave"
  | .setlinecap => "setlinecap"
  | .setlinejoin => "setlinejoin"
  | .setlinewidth => "setlinewidth"
  | .setmiterlimit => "setmiterlimit"
  | .bind => "bind"
  | .define => "def"
  | .load => "load"

/-- Every primitive operator. -/
def all : List Primitive :=
  [.setgray, .setrgbcolor, .closepath, .curveto, .lineto, .moveto, .newpath, .clip, .eofill,
   .fill, .stroke, .length, .add, .div, .mul, .neg, .sub, .eq, .ge, .gt, .le, .lt, .ne, .not,
   .clear, .count, .dup, .exch, .pop, .roll, .concat, .matrix, .grestore, .gsave, .setlinecap,
   .setlinejoin, .setlinewidth, .setmiterlimit, .bind, .define, .load]

/-- The list of primitive operators is complete. -/
theorem mem_all (p : Primitive) : p ∈ all := by
  cases p <;> decide

end Primitive

/-- All operators. -/
inductive Operator where
  | primitive (p : Primitive)
  | findfont
  | conditional
  deriving DecidableEq

namespace Operator

/-- The name of an operator. -/
def name : Operator → String
  | .primitive p => p.name
  | .findfont => "findfont"
  | .conditional => "if"

/-- Every operator. -/
def all : List Operator := .findfont :: .conditional :: Primitive.all.map .primitive

/-- The list of operators is complete. -/
theorem mem_all (op : Operator) : op ∈ all := by
  cases op with
  | primitive p =>
      exact List.mem_cons_of_mem _ (List.mem_cons_of_mem _
        (List.mem_map_of_mem (Primitive.mem_all p)))
  | findfont => exact List.mem_cons_self
  | conditional => exact List.mem_cons_of_mem _ List.mem_cons_self

/-- The operator with a given name. -/
def ofName? (name : String) : Option Operator := all.find? fun op => op.name == name

end Operator

end PathScript
