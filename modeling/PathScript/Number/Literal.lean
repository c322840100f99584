import PathScript.Number.Text
import PathScript.Text.Digit

/-!
# Reading Numbers

The grammar of number literals: an optional minus sign, digits with an
optional point among or after them or a point before them, and an optional
exponent. Digits are ASCII digits; nothing may stand before or after.

A literal denotes a decimal exactly, and the number read is the binary number
nearest to it. That number may be infinite: whether a literal so large is
acceptable is for the reader of programs to decide, and it says no.

`Binary64.ofText?` reads numbers as people write them, and is more generous: it
accepts a plus sign, the names of the numbers that are not finite, the digits
of any script, single underscores between digits and blanks around the whole.
It undoes `Binary64.text`.

## Main definitions

* `Literal.parse?`: The decimal denoted by a literal.
* `Literal.value?`: The binary number nearest to it.
* `Binary64.ofText?`: A number from its written form.
-/

namespace PathScript

namespace Literal

/-- Whether a character is an ASCII digit. -/
def isDigit (c : Char) : Bool := '0' ≤ c && c ≤ '9'

/-- The value of a run of digits. -/
def digitsValue (digits : List Char) : Nat :=
  digits.foldl (fun value c => value * 10 + (c.toNat - '0'.toNat)) 0

/-- A leading minus sign and what follows it. -/
def splitSign : List Char → Bool × List Char
  | '-' :: rest => (true, rest)
  | text => (false, text)

/-- The digits after a point, if there is one, and what follows them. -/
def splitFraction : List Char → List Char × List Char
  | '.' :: rest => rest.span isDigit
  | text => ([], text)

/-- A run of at least one digit that takes up the whole text. -/
def parseDigits? (text : List Char) : Option Nat :=
  if !text.isEmpty && text.all isDigit then some (digitsValue text) else none

/-- The digits of an exponent with an optional sign of either kind. -/
def parseSigned? : List Char → Option Int
  | '-' :: rest => (parseDigits? rest).map fun n => -(n : Int)
  | '+' :: rest => (parseDigits? rest).map Int.ofNat
  | text => (parseDigits? text).map Int.ofNat

/-- The exponent at the end of a literal; none is written for zero. -/
def parseExponent? : List Char → Option Int
  | [] => some 0
  | 'e' :: rest => parseSigned? rest
  | 'E' :: rest => parseSigned? rest
  | _ => none

/-- The decimal denoted by a literal, or `none` if the text is not one. -/
def parse? (text : List Char) : Option Decimal :=
  let (negative, unsigned) := splitSign text
  let (whole, afterWhole) := unsigned.span isDigit
  let (fraction, afterFraction) := splitFraction afterWhole
  if whole.isEmpty && fraction.isEmpty then none
  else
    (parseExponent? afterFraction).map fun exponent =>
      .finite negative (digitsValue (whole ++ fraction)) (exponent - fraction.length)

/-- The binary number nearest to what a literal denotes. -/
def value? (text : String) : Option Binary64 :=
  (parse? text.toList).map Decimal.toBinary64

end Literal

namespace Binary64

/-- The number with a name, in letters of either case, with the given sign. -/
def named? (negative : Bool) (name : String) : Option Binary64 :=
  let name := name.map Char.toLower
  if name = "nan" then some .nan
  else if name = "inf" || name = "infinity" then some (.infinite negative)
  else none

/-- A text with the digits of any script replaced by ASCII digits. -/
def asciiDigits (text : List Char) : List Char :=
  text.map fun c => ((digitValue? c).map fun d => Char.ofNat ('0'.toNat + d)).getD c

/-- A text without the underscores that stand between two digits. -/
def joinDigits : List Char → List Char
  | [] => []
  | [c] => [c]
  | c :: '_' :: d :: rest =>
      if Literal.isDigit c && Literal.isDigit d then c :: joinDigits (d :: rest)
      else c :: '_' :: joinDigits (d :: rest)
  | c :: rest => c :: joinDigits rest

/-- A number from its written form: a literal, which may have a plus sign
    instead of a minus, or the name of a number that is not finite. -/
def ofText? (text : String) : Option Binary64 :=
  match joinDigits (asciiDigits (trimBlanks text.toList)) with
  | '-' :: rest =>
      (named? true (String.ofList rest)).orElse fun _ => Literal.value? (String.ofList ('-' :: rest))
  | '+' :: '-' :: _ => none
  | '+' :: rest =>
      (named? false (String.ofList rest)).orElse fun _ => Literal.value? (String.ofList rest)
  | rest => (named? false (String.ofList rest)).orElse fun _ => Literal.value? (String.ofList rest)

end Binary64

end PathScript
