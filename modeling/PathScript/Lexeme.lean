import PathScript.Text.Lines

/-!
# Lexemes

One line of a program, split into the words the interpreter acts on.

White space separates lexemes and `%` begins a comment that takes the rest of
the line. A bracket or a brace is a lexeme of its own wherever it stands. A
solidus always begins a new lexeme, so that `a/b` is the two lexemes `a` and
`/b`. Every other character continues the lexeme it stands in.

The splitting is stated as the grammar reads: at each place the first
character decides what the lexeme there is and how far it goes.

## Main definitions

* `isSeparator`, `isBracket`, `isRegular`: The classes of characters.
* `scanLexemes`: The lexemes of a line, as characters.
* `lexemes`: The lexemes of a line.
-/

namespace PathScript

/-- Whether a character separates lexemes: null, tab, line feed, form feed,
    carriage return and space do. -/
def isSeparator (c : Char) : Bool :=
  c == '\x00' || c == '\t' || c == '\n' || c == '\x0c' || c == '\r' || c == ' '

/-- Whether a character is a lexeme of its own. -/
def isBracket (c : Char) : Bool :=
  c == '[' || c == ']' || c == '\x7b' || c == '\x7d'

/-- The character that begins a comment. -/
def commentMark : Char := '%'

/-- The character that begins a literal name. -/
def nameMark : Char := '/'

/-- Whether a character continues the lexeme it stands in. -/
def isRegular (c : Char) : Bool :=
  !isSeparator c && !isBracket c && c != commentMark && c != nameMark

/-- The lexemes of a line, as characters. -/
def scanLexemes : List Char → List (List Char)
  | [] => []
  | c :: rest =>
      if isSeparator c then scanLexemes rest
      else if c == commentMark then []
      else if isBracket c then [c] :: scanLexemes rest
      else (c :: rest.takeWhile isRegular) :: scanLexemes (rest.dropWhile isRegular)
termination_by line => line.length
decreasing_by
  · exact Nat.lt_succ_self _
  · exact Nat.lt_succ_self _
  · exact Nat.lt_succ_of_le (List.dropWhile_suffix isRegular).length_le

/-- The lexemes of a line. -/
def lexemes (line : String) : List String :=
  (scanLexemes line.toList).map String.ofList

end PathScript
