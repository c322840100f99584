import PathScript.Geometry.Instruction

/-!
# Writing Drawings

The two forms in which drawings leave the program. The plain form is one
instruction to a line. The structured form is JSON: a drawing is a list of
objects with a kind and points, and several drawings are a list of such
lists, while one alone stands for itself.

Structured text is laid out with every member on a line of its own, indented
by two blanks for each level, and numbers keep a fraction.

## Main definitions

* `Markup`: Structured text.
* `Markup.render`: Its layout.
* `OutputFormat`: The two forms.
* `OutputFormat.write`: Drawings in a form.
-/

namespace PathScript

/-- Structured text: words as they are to be written, and lists and objects of
    such. -/
inductive Markup where
  | word (text : String)
  | list (members : List Markup)
  | object (members : List (String × Markup))

namespace Markup

/-- A line break and the indentation of a level. -/
def newline (level : Nat) : String := "\n" ++ String.ofList (List.replicate (2 * level) ' ')

/-- Members between two brackets, each on a line of its own. -/
def enclose (left right : String) (level : Nat) (members : List String) : String :=
  if members.isEmpty then left ++ right
  else
    left ++ newline (level + 1) ++ ("," ++ newline (level + 1)).intercalate members
      ++ newline level ++ right

mutual

/-- The layout of structured text at a level. -/
def render (level : Nat) : Markup → String
  | .word text => text
  | .list members => enclose "[" "]" level (renderList (level + 1) members)
  | .object members => enclose "\x7b" "\x7d" level (renderMembers (level + 1) members)

/-- The layouts of the members of a list. -/
def renderList (level : Nat) : List Markup → List String
  | [] => []
  | member :: members => member.render level :: renderList level members

/-- The layouts of the members of an object. -/
def renderMembers (level : Nat) : List (String × Markup) → List String
  | [] => []
  | (key, member) :: members =>
      ("\"" ++ key ++ "\": " ++ member.render level) :: renderMembers level members

end

end Markup

/-- A point as structured text. -/
def Point.markup (p : Point) : Markup :=
  .list [.word (Layout.json.write p.x), .word (Layout.json.write p.y)]

/-- An instruction as structured text. -/
def Instruction.markup (i : Instruction) : Markup :=
  .object
    [("kind", .word ("\"" ++ i.kind.name ++ "\"")), ("points", .list (i.points.map Point.markup))]

/-- The forms in which drawings leave the program. -/
inductive OutputFormat where
  | text
  | json
  deriving DecidableEq

namespace OutputFormat

/-- The name of a form. -/
def name : OutputFormat → String
  | .text => "text"
  | .json => "json"

/-- Every form. -/
def all : List OutputFormat := [.text, .json]

/-- The form with a given name. -/
def ofName? (name : String) : Option OutputFormat := all.find? fun f => f.name == name

/-- Drawings as structured text: one alone stands for itself. -/
def drawingsMarkup (drawings : List (List Instruction)) : Markup :=
  match drawings.map fun drawing => Markup.list (drawing.map Instruction.markup) with
  | [one] => one
  | several => .list several

/-- Drawings in a form. -/
def write : OutputFormat → List (List Instruction) → String
  | .text, drawings => String.join (drawings.flatten.map fun i => i.text ++ "\n")
  | .json, drawings => (drawingsMarkup drawings).render 0 ++ "\n"

end OutputFormat

end PathScript
