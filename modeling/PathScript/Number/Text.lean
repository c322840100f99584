import PathScript.Number.Shortest

/-!
# Writing Numbers

The written form of a binary number. The digits are those of the shortest
decimal that reads back; what remains is layout, and every decision about it
is a field of one record, `Layout`.

Two layouts are in use. `Layout.plain` is the one of messages and of drawing
coordinates with a fraction; `Layout.json` differs from it only in the names
of the numbers that are not finite. A third form, `Binary64.compact`, writes
an integral number without a decimal point, with all its digits.

## Main definitions

* `Layout`: The decisions behind the written form of a number.
* `Layout.write`: The written form under a layout.
* `Binary64.text`: The written form in messages, a fraction always shown.
* `Binary64.compact`: The written form of values and coordinates.
-/

namespace PathScript

/-- The decisions behind the written form of a number. An order of magnitude
    is the power of ten of the first digit. -/
structure Layout where
  /-- The least order of magnitude written without an exponent. -/
  leastPositional : Int
  /-- The least order of magnitude that needs an exponent again. -/
  pastPositional : Int
  /-- The least number of digits of a written exponent. -/
  exponentDigits : Nat
  /-- The name of positive infinity. -/
  infinity : String
  /-- The name of not-a-number. -/
  notANumber : String

namespace Layout

/-- Orders of magnitude from `-4` to `15` are written positionally, an exponent
    has at least two digits, and what is not finite is `inf` or `nan`. -/
def plain : Layout where
  leastPositional := -4
  pastPositional := 16
  exponentDigits := 2
  infinity := "inf"
  notANumber := "nan"

/-- The plain layout with the names that structured output uses. -/
def json : Layout := { plain with infinity := "Infinity", notANumber := "NaN" }

/-- A run of zeros. -/
def zeros (count : Nat) : String := String.ofList (List.replicate count '0')

/-- A minus sign, if the number is negative. -/
def sign (negative : Bool) : String := if negative then "-" else ""

/-- Digits with the point after the first `whole` of them. At least one digit
    stands on either side: missing places are filled with zeros. -/
def positional (digits : String) (whole : Int) : String :=
  let chars := digits.toList
  let count := chars.length
  if whole ≤ 0 then "0." ++ zeros (-whole).toNat ++ digits
  else if count ≤ whole.toNat then digits ++ zeros (whole.toNat - count) ++ ".0"
  else
    String.ofList (chars.take whole.toNat) ++ "." ++ String.ofList (chars.drop whole.toNat)

/-- Digits with a point after the first one, if there are more, and an
    exponent with its sign. -/
def scientific (layout : Layout) (digits : String) (order : Int) : String :=
  let chars := digits.toList
  let lead := String.ofList (chars.take 1)
  let rest := chars.drop 1
  let significand := if rest.isEmpty then lead else lead ++ "." ++ String.ofList rest
  let exponent := toString order.natAbs
  let mark := if order < 0 then "e-" else "e+"
  significand ++ mark ++ zeros (layout.exponentDigits - exponent.length) ++ exponent

/-- The written form of a finite decimal. -/
def finite (layout : Layout) (coefficient : Nat) (exponent : Int) : String :=
  let digits := toString coefficient
  let whole := exponent + digits.length
  let order := whole - 1
  if coefficient = 0 then "0.0"
  else if layout.leastPositional ≤ order && order < layout.pastPositional then
    positional digits whole
  else layout.scientific digits order

/-- The written form of a number. -/
def write (layout : Layout) (x : Binary64) : String :=
  match x.toDecimal with
  | .finite negative coefficient exponent =>
      sign negative ++ layout.finite coefficient exponent
  | .infinite negative => sign negative ++ layout.infinity
  | .nan => layout.notANumber

end Layout

namespace Binary64

/-- The written form of a number in messages: a finite number always shows a
    point or an exponent. -/
def text (x : Binary64) : String := Layout.plain.write x

/-- The written form of values and coordinates: an integral number is written
    as an integer, with all its digits and no sign on zero. -/
def compact (x : Binary64) : String :=
  match x.toInt? with
  | some n => toString n
  | none => x.text

end Binary64

end PathScript
