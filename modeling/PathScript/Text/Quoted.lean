import PathScript.Text.Printable

/-!
# Quoted Texts

How a text is quoted in a message: between single quotes, or between double
quotes if it holds a single quote and no double one. The quote in use and the
backslash are preceded by a backslash, and a character that does not show is
written as an escape.

## Main definitions

* `quoted`: A text as it stands in a message.
-/

namespace PathScript

/-- A number in hexadecimal with at least `width` digits. -/
def hexadecimal (width n : Nat) : String :=
  let digits := Nat.toDigits 16 n
  String.ofList (List.replicate (width - digits.length) '0' ++ digits)

/-- A character that does not show, as an escape. -/
def escapedCode (c : Char) : String :=
  if c.toNat < 0x100 then "\\x" ++ hexadecimal 2 c.toNat
  else if c.toNat < 0x10000 then "\\u" ++ hexadecimal 4 c.toNat
  else "\\U" ++ hexadecimal 8 c.toNat

/-- One character inside the given quotes. -/
def quotedChar (quote c : Char) : String :=
  if c = quote || c = '\\' then String.ofList ['\\', c]
  else if c = '\t' then "\\t"
  else if c = '\n' then "\\n"
  else if c = '\r' then "\\r"
  else if isPrintable c then c.toString
  else escapedCode c

/-- The quotes a text stands between. -/
def quoteFor (text : String) : Char :=
  if text.toList.contains '\'' && !text.toList.contains '"' then '"' else '\''

/-- A text as it stands in a message. -/
def quoted (text : String) : String :=
  let quote := quoteFor text
  quote.toString ++ String.join (text.toList.map (quotedChar quote)) ++ quote.toString

end PathScript
