import PathScript.Number.Shortest

/-!
# Points and Matrices

Affine maps of the plane, as a program gives them: six numbers
`[a b c d tx ty]` that send `(x, y)` to `(a x + c y + tx, b x + d y + ty)`.

The arithmetic is decimal. Each number enters as the shortest decimal that
reads back as it, each product and sum is taken at `workingDigits` significant
digits, and each result is cut to `keptDigits` before it becomes a binary
number again. The last cut removes what binary fractions add to decimal
input: a tenth moved by two tenths lands on three tenths.

Infinite entries can arise, because a result may exceed the finite numbers.
Arithmetic with them can be undefined, and a map with no value answers
`none`.

## Main definitions

* `Point`: A point of the plane.
* `Matrix`: An affine map.
* `Matrix.identity`: The map that moves nothing.
* `Matrix.image?`: The image of a point.
* `Matrix.mul?`: The map that applies one matrix and then another.
-/

namespace PathScript

/-- A point of the plane. -/
structure Point where
  x : Binary64
  y : Binary64
  deriving DecidableEq

/-- An affine map, sending `(x, y)` to `(a x + c y + tx, b x + d y + ty)`. -/
structure Matrix where
  a : Binary64
  b : Binary64
  c : Binary64
  d : Binary64
  tx : Binary64
  ty : Binary64
  deriving DecidableEq

namespace Matrix

/-- The number of significant digits of each product and sum. -/
def workingDigits : Nat := 50

/-- The number of significant digits of each result, which a binary number
    holds reliably. -/
def keptDigits : Nat := 15

/-- The map that moves nothing. -/
def identity : Matrix where
  a := .one
  b := .zero false
  c := .zero false
  d := .one
  tx := .zero false
  ty := .zero false

/-- The entries in order. -/
def toList (m : Matrix) : List Binary64 := [m.a, m.b, m.c, m.d, m.tx, m.ty]

/-- A matrix from its six entries in order. -/
def ofList? : List Binary64 → Option Matrix
  | [a, b, c, d, tx, ty] => some ⟨a, b, c, d, tx, ty⟩
  | _ => none

/-- A result of decimal arithmetic as a binary number. -/
def settle (value : Decimal) : Binary64 := (value.plus keptDigits).toBinary64

/-- The sum `p * q + r * s` at the working precision. -/
def sumOfProducts? (p q r s : Binary64) : Option Decimal := do
  let left ← Decimal.mul? workingDigits p.toDecimal q.toDecimal
  let right ← Decimal.mul? workingDigits r.toDecimal s.toDecimal
  Decimal.add? workingDigits left right

/-- The number `p * q + r * s`. -/
def linear? (p q r s : Binary64) : Option Binary64 :=
  (sumOfProducts? p q r s).map settle

/-- The number `p * q + r * s + t`. -/
def affine? (p q r s t : Binary64) : Option Binary64 := do
  let sum ← sumOfProducts? p q r s
  let total ← Decimal.add? workingDigits sum t.toDecimal
  return settle total

/-- The image of a point. -/
def image? (m : Matrix) (p : Point) : Option Point := do
  let x ← affine? m.a p.x m.c p.y m.tx
  let y ← affine? m.b p.x m.d p.y m.ty
  return ⟨x, y⟩

/-- The map that applies `m` and then `n`. -/
def mul? (m n : Matrix) : Option Matrix := do
  let a ← linear? m.a n.a m.b n.c
  let b ← linear? m.a n.b m.b n.d
  let c ← linear? m.c n.a m.d n.c
  let d ← linear? m.c n.b m.d n.d
  let tx ← affine? m.tx n.a m.ty n.c n.tx
  let ty ← affine? m.tx n.b m.ty n.d n.ty
  return ⟨a, b, c, d, tx, ty⟩

end Matrix

end PathScript
