/-!
# Settings

What a caller can choose about a run: the codec of binary input, the line that
ends font definitions, and three limits.

A limit on a stack is off if it is zero. Any other limit is on, and a negative
one is reached from the start. The limit on the nesting of procedures is
always on.

Callers choose settings by name. Asking for one that does not exist is refused
as a whole, and the refusal lists the names that were not known.

## Main definitions

* `Settings`: The settings.
* `Settings.override`: Settings changed by name.
* `underLimit`: Whether a stack has room for one more.
-/

namespace PathScript

/-- What a caller can choose about a run. -/
structure Settings where
  /-- The name of the codec for binary input. -/
  encoding : String
  /-- The line that ends font definitions; `none` if no line does. -/
  prologMarker : Option String
  /-- The most values on the operand stack; zero for no limit. -/
  maxOperands : Int
  /-- The most saved graphics states; zero for no limit. -/
  maxSaved : Int
  /-- The deepest nesting of procedures. -/
  maxDepth : Int
  deriving DecidableEq

/-- Whether a stack of a given height has room for one more under a limit. -/
def underLimit (limit : Int) (height : Nat) : Bool :=
  limit == 0 || decide ((height : Int) < limit)

namespace Settings

/-- The settings of a run whose caller chooses nothing. -/
def standard : Settings where
  encoding := "latin-1"
  prologMarker := some "%%EndProlog"
  maxOperands := 0
  maxSaved := 0
  maxDepth := 100

/-- A setting as a caller gives it. -/
inductive Choice where
  | text (value : String)
  | number (value : Int)
  /-- Named, but with nothing chosen for it. -/
  | blank
  deriving DecidableEq

/-- The settings by name. -/
def toList (s : Settings) : List (String × Choice) :=
  [("Encoding", .text s.encoding), ("PrologMarker", s.prologMarker.elim .blank .text),
   ("MaxOpStack", .number s.maxOperands), ("MaxGStack", .number s.maxSaved),
   ("MaxExecDepth", .number s.maxDepth)]

/-- Whether there is a setting of a name. -/
def isKnown (name : String) : Bool := (standard.toList.map (·.1)).contains name

/-- How messages name the line that ends font definitions. -/
def markerText (s : Settings) : String := s.prologMarker.getD "[]"

/-- The settings with one changed. A name that is not known, or a choice of the
    wrong sort, changes nothing. A limit left blank is off, and a marker left
    blank is no line at all. -/
def choose (s : Settings) (name : String) : Choice → Settings
  | .text value =>
      if name = "Encoding" then { s with encoding := value }
      else if name = "PrologMarker" then { s with prologMarker := some value }
      else s
  | .number value =>
      if name = "MaxOpStack" then { s with maxOperands := value }
      else if name = "MaxGStack" then { s with maxSaved := value }
      else if name = "MaxExecDepth" then { s with maxDepth := value }
      else s
  | .blank =>
      if name = "PrologMarker" then { s with prologMarker := none }
      else if name = "MaxOpStack" then { s with maxOperands := 0 }
      else if name = "MaxGStack" then { s with maxSaved := 0 }
      else s

/-- Names of settings that do not exist, in order. -/
structure Unknown where
  names : List String

/-- The wording of a refusal. -/
def Unknown.message (u : Unknown) : String :=
  "Unknown system parameter(s): " ++ ", ".intercalate u.names

/-- The standard settings changed by name, unless a name does not exist. -/
def override (choices : List (String × Choice)) : Except Unknown Settings :=
  let unknown := (choices.map (·.1)).filter (!isKnown ·)
  if unknown.isEmpty then
    .ok (choices.foldl (fun s choice => s.choose choice.1 choice.2) standard)
  else .error ⟨unknown.mergeSort fun a b => decide (a ≤ b)⟩

end Settings

end PathScript
