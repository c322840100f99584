import PathScript.Number.Text
import PathScript.Operator

/-!
# Values

What the operand stack holds and names are bound to: numbers, literal names,
booleans, arrays, procedures, operators, and literal procedures, whose one
effect is to push a value.

A procedure is kept as the lexemes it was written with. Names in it are looked
up when it runs, so a body has no meaning of its own.

Arrays, procedures and literal procedures have an *identity*. Two arrays or
procedures are the same for a program only if they come from one act of
construction, and the identity is the number of that act. Two literal
procedures are the same only if they wrap one object, and the identity is the
number of that object. Copying keeps identities. There is one exception, which
the language leaves open and programs can see: procedures with an empty body
are all the same.

## Main definitions

* `Value`: The values.
* `Value.Kind`: Their types.
* `Value.isExecutable`: Whether a value can be invoked.
* `Value.identical`: Sameness as a program sees it.
* `Value.equal`: Sameness of what two values hold.
* `Value.text`: The written form.
* `Value.refresh`: The value with identities of its own.
-/

namespace PathScript

/-- The number of an act of construction. -/
abbrev Identity := Nat

/-- What the operand stack holds and names are bound to. -/
inductive Value where
  | real (x : Binary64)
  | name (text : String)
  | bool (b : Bool)
  | array (identity : Identity) (items : List Value)
  | procedure (identity : Identity) (body : List String)
  | operator (op : Operator)
  | literal (identity : Identity) (value : Value)

namespace Value

/-- The types of values. -/
inductive Kind where
  | array
  | bool
  | name
  | operator
  | procedure
  | literal
  | real
  deriving DecidableEq

/-- The number of a type. -/
def Kind.tag : Kind → Nat
  | .array => 0
  | .bool => 1
  | .name => 2
  | .operator => 3
  | .procedure => 4
  | .literal => 5
  | .real => 6

/-- The type of a value. -/
def kind : Value → Kind
  | .real _ => .real
  | .name _ => .name
  | .bool _ => .bool
  | .array _ _ => .array
  | .procedure _ _ => .procedure
  | .operator _ => .operator
  | .literal _ _ => .literal

/-- Whether a value can be invoked. -/
def isExecutable : Value → Bool
  | .operator _ => true
  | .procedure _ _ => true
  | .literal _ _ => true
  | _ => false

/-- The number a value is, if it is one. -/
def real? : Value → Option Binary64
  | .real x => some x
  | _ => none

/-- The truth value a value is, if it is one. -/
def bool? : Value → Option Bool
  | .bool b => some b
  | _ => none

/-- The text of a value, if it is a name. -/
def name? : Value → Option String
  | .name text => some text
  | _ => none

/-- The items of a value, if it is an array. -/
def items? : Value → Option (List Value)
  | .array _ items => some items
  | _ => none

/-- Whether a value can be the key of a table: it can if no array is the value
    or the innermost value of literal procedures. -/
def isHashable : Value → Bool
  | .array _ _ => false
  | .literal _ value => value.isHashable
  | _ => true

/-- Sameness as a program sees it: numbers, names and booleans by what they
    are, operators by which they are, and everything else by identity. -/
def identical : Value → Value → Bool
  | .real x, .real y => x.eq y
  | .name a, .name b => a == b
  | .bool a, .bool b => a == b
  | .array i _, .array j _ => i == j
  | .procedure i body, .procedure j other => i == j || (body.isEmpty && other.isEmpty)
  | .operator a, .operator b => a == b
  | .literal i _, .literal j _ => i == j
  | _, _ => false

mutual

/-- Sameness of what two values hold, whatever their identities. -/
def equal : Value → Value → Bool
  | .real x, .real y => x.eq y
  | .name a, .name b => a == b
  | .bool a, .bool b => a == b
  | .array _ items, .array _ others => equalAll items others
  | .procedure _ body, .procedure _ other => body == other
  | .operator a, .operator b => a == b
  | .literal _ a, .literal _ b => a.equal b
  | _, _ => false

/-- Sameness of two lists of values, place by place. -/
def equalAll : List Value → List Value → Bool
  | [], [] => true
  | a :: as, b :: bs => a.equal b && equalAll as bs
  | _, _ => false

end

/-- The written form of a procedure: its lexemes between braces. -/
def bodyText (body : List String) : String :=
  if body.isEmpty then "\x7b\x7d" else "\x7b " ++ " ".intercalate body ++ " \x7d"

mutual

/-- The written form of a value. -/
def text : Value → String
  | .real x => x.compact
  | .name text => "/" ++ text
  | .bool b => if b then "true" else "false"
  | .array _ items => "[" ++ " ".intercalate (texts items) ++ "]"
  | .procedure _ body => bodyText body
  | .operator op => "--" ++ op.name ++ "--"
  | .literal _ value => "\x7b " ++ value.text ++ " \x7d"

/-- The written forms of values in order. -/
def texts : List Value → List String
  | [] => []
  | value :: values => value.text :: texts values

end

/-- The written form of a stack of values, top first: the top is written
    last. -/
def stackText (operands : List Value) : String :=
  "[" ++ ", ".intercalate (texts operands.reverse) ++ "]"

mutual

/-- The value with identities of its own, numbered from `next` on, and the next
    number after them. -/
def refresh (next : Identity) : Value → Value × Identity
  | .array _ items =>
      let (fresh, next) := refreshAll next items
      (.array next fresh, next + 1)
  | .procedure _ body => (.procedure next body, next + 1)
  | .literal _ value =>
      let (fresh, next) := value.refresh next
      (.literal next fresh, next + 1)
  | value => (value, next)

/-- The values with identities of their own. -/
def refreshAll (next : Identity) : List Value → List Value × Identity
  | [] => ([], next)
  | value :: values =>
      let (fresh, next) := value.refresh next
      let (others, next) := refreshAll next values
      (fresh :: others, next)

end

end Value

end PathScript
