import PathScript.Disk
import PathScript.Interpreter
import PathScript.Text.Lowercase

/-!
# Importing Programs

An import runs one program from the beginning and hands over what it drew,
closed by an end mark. It is all or nothing: a program that is stopped by a
fault yields the fault and none of its drawing.

Callers who hold a file rather than a program choose by the file's name. A
registry lists loaders, each for the names that end in a given way, and the
first that fits is used. Names are compared in lower case, endings as they
are, so that an ending with a capital letter in it fits no name.

## Main definitions

* `importSource`: The run of a program.
* `Run.drawing`: The drawing a run yields.
* `ImportError`: Why an import yields no drawing.
* `importWith`: An import under chosen settings.
* `Loader`, `Registry.find?`: Loaders and the choice among them.
* `standardLoaders`: The loaders there are from the start.
* `importFile`, `loadFile`: Importing and loading files.
-/

namespace PathScript

/-- The run of a program from its beginning. -/
def importSource (settings : Settings) (source : Source) : Run :=
  (Machine.start settings source).runInput

/-- The drawing a run yields, closed by an end mark. -/
def Run.drawing (r : Run) : Except Fault (List Instruction) :=
  match r.fault? with
  | some fault => .error fault
  | none => .ok (r.machine.drawing ++ [.finish])

/-- Why an import yields no drawing. -/
inductive ImportError where
  | settings (unknown : Settings.Unknown)
  | fault (f : Fault)

/-- An import under settings chosen by name. -/
def importWith (choices : List (String × Settings.Choice)) (source : Source) :
    Except ImportError (List Instruction) := do
  let settings ← (Settings.override choices).mapError .settings
  (importSource settings source).drawing.mapError .fault

/-- A way to load files whose names end in a given way. -/
structure Loader (α : Type) where
  /-- The end of the names of the files it loads. -/
  extension : String
  /-- What people call such files. -/
  label : Option String
  /-- What it makes of the contents of a file under chosen settings. -/
  load : List UInt8 → List (String × Settings.Choice) → Except ImportError α

/-- Loaders in the order in which they were registered. -/
abbrev Registry (α : Type) := List (Loader α)

/-- The first loader for a file name. -/
def Registry.find? {α : Type} (registry : Registry α) (filename : String) :
    Option (Loader α) :=
  List.find? (fun loader => (lowercase filename).endsWith loader.extension) registry

/-- The loaders there are from the start. Both import programs, and `wrap` says
    how a drawing is handed over. -/
def standardLoaders {α : Type} (wrap : List Instruction → α) : Registry α :=
  let load (bytes : List UInt8) (choices : List (String × Settings.Choice)) :=
    (importWith choices (.bytes bytes)).map wrap
  [⟨".ps", some "PostScript", load⟩, ⟨".eps", some "Encapsulated PostScript", load⟩]

/-- Why a file yields nothing: it cannot be opened, or what is in it cannot be
    imported. -/
inductive LoadError where
  | file (e : FileError)
  | content (e : ImportError)

/-- Imports the program in a file. The file is opened before the settings are
    looked at. -/
def importFile (read : String → Except FileError (List UInt8)) (filename : String)
    (choices : List (String × Settings.Choice)) : Except LoadError (List Instruction) := do
  let contents ← (read filename).mapError .file
  (importWith choices (.bytes contents)).mapError .content

/-- What the first loader for a file name makes of the file. If no loader fits
    there is no result, and the file is not opened. -/
def loadFile {α : Type} (registry : Registry α)
    (read : String → Except FileError (List UInt8)) (filename : String)
    (choices : List (String × Settings.Choice)) : Except LoadError (Option α) :=
  match registry.find? filename with
  | none => .ok none
  | some loader => do
      let contents ← (read filename).mapError .file
      some <$> (loader.load contents choices).mapError .content

end PathScript
