import PathScript.Text.Quoted

/-!
# Files

The files that a command reads and writes, as a value: what is where, and what
comes of reading or writing at a path.

A path is a sequence of names. Empty names in it mean nothing, a single point
stays where it is and a double point leads back. Whatever is followed by
another name has to be a directory. A path that ends in a solidus stands for a
directory: reading there needs one, and no file can be written there.

Beyond the directory described nothing is known but the directories that paths
lead back to and the null device, which reads as empty and keeps nothing.

## Main definitions

* `Disk`: Files and directories.
* `FileError`: Why a file could not be opened.
* `Disk.resolve`: Where a path leads.
* `Disk.read`: The contents of a file.
* `Disk.write`: The files after writing one.
* `Disk.changesFrom`: The files that are new or different.
-/

namespace PathScript

/-- Why a file could not be opened. -/
inductive FileError where
  | missing (path : String)
  | isDirectory (path : String)
  | notDirectory (path : String)
  | tooLong (path : String)
  /-- A null character, which no path has. -/
  | nullInPath
  deriving DecidableEq

/-- The wording of a file error. -/
def FileError.message : FileError → String
  | .missing path => "[Errno 2] No such file or directory: " ++ quoted path
  | .isDirectory path => "[Errno 21] Is a directory: " ++ quoted path
  | .notDirectory path => "[Errno 20] Not a directory: " ++ quoted path
  | .tooLong path => "[Errno 36] File name too long: " ++ quoted path
  | .nullInPath => "embedded null byte"

/-- Whether an error is an answer of the file system, as opposed to a path that
    cannot even be asked about. -/
def FileError.isReported : FileError → Bool
  | .nullInPath => false
  | _ => true

/-- Files by their paths, and directories. Paths are relative and in their
    simplest form. -/
structure Disk where
  files : List (List String × List UInt8)
  directories : List (List String)

/-- Where a path leads. -/
inductive Place where
  /-- Into the directory described, by these names. -/
  | inside (names : List String)
  /-- To a directory that holds the one described. -/
  | above
  /-- To the root of all directories. -/
  | root
  /-- To the directory of devices. -/
  | devices
  /-- To the null device. -/
  | nullDevice
  deriving DecidableEq

/-- The most bytes in a name. -/
def longestName : Nat := 255

/-- The most bytes in a path. -/
def longestPath : Nat := 4095

namespace Disk

/-- The names of a path, with the empty ones left out: runs of characters other than
    solidi. -/
def names (path : String) : List String :=
  let runs := path.toList.splitBy fun a b => (a == '/') == (b == '/')
  (runs.filter (·.all (· != '/'))).map String.ofList

/-- The names of what a path describes, with single points left out. -/
def simplest (path : String) : List String := (names path).filter (· ≠ ".")

/-- Files and directories given by their paths. The directories on the way to
    each exist as well. -/
def ofPaths (files : List (String × List UInt8)) (directories : List String) : Disk :=
  let placed := files.map fun file => (simplest file.1, file.2)
  let parents := placed.flatMap fun file => (List.range file.1.length).map file.1.take
  let explicit := directories.flatMap fun d =>
    (List.range ((simplest d).length + 1)).map (simplest d).take
  ⟨placed, [] :: parents ++ explicit⟩

/-- The contents of the file with the given names. -/
def file? (disk : Disk) (place : List String) : Option (List UInt8) :=
  (disk.files.find? fun file => file.1 == place).map (·.2)

/-- Whether there is a directory with the given names. -/
def isDirectory (disk : Disk) (place : List String) : Bool := disk.directories.contains place

/-- Whether a place is a directory. -/
def holdsNames (disk : Disk) : Place → Bool
  | .inside place => disk.isDirectory place
  | .nullDevice => false
  | _ => true

/-- The contents of a place, if it is a file. -/
def contents? (disk : Disk) : Place → Option (List UInt8)
  | .inside place => disk.file? place
  | .nullDevice => some []
  | _ => none

/-- The directory that holds a directory. -/
def parent : Place → Place
  | .inside [] => .above
  | .inside place => .inside place.dropLast
  | .devices => .root
  | place => place

/-- What a name means in a directory; `none` if nothing can be there. -/
def child? : Place → String → Option Place
  | .inside place, name => some (.inside (place ++ [name]))
  | .root, "dev" => some .devices
  | .devices, "null" => some .nullDevice
  | _, _ => none

/-- Where names lead from a place on. -/
def walk (disk : Disk) (path : String) (place : Place) : List String → Except FileError Place
  | [] => .ok place
  | name :: rest =>
      if disk.holdsNames place then
        if name = "." then walk disk path place rest
        else if name = ".." then walk disk path (parent place) rest
        else if longestName < name.utf8ByteSize then .error (.tooLong path)
        else
          match child? place name with
          | some next => walk disk path next rest
          | none => .error (.missing path)
      else if (disk.contents? place).isSome then .error (.notDirectory path)
      else .error (.missing path)

/-- Where names lead that a path has. -/
def resolve (disk : Disk) (path : String) (names : List String) : Except FileError Place :=
  if path.toList.contains '\x00' then .error .nullInPath
  else if path.isEmpty then .error (.missing path)
  else if longestPath < path.utf8ByteSize then .error (.tooLong path)
  else walk disk path (if path.startsWith "/" then .root else .inside []) names

/-- The contents of the file at a path. -/
def read (disk : Disk) (path : String) : Except FileError (List UInt8) := do
  let place ← disk.resolve path (names path)
  if disk.holdsNames place then throw (.isDirectory path)
  match disk.contents? place with
  | some contents => if path.endsWith "/" then throw (.notDirectory path) else return contents
  | none => throw (.missing path)

/-- The files after writing one at a path. Where a path ends in a solidus, all
    that matters is whether the directory it would be in is there. -/
def write (disk : Disk) (path : String) (contents : List UInt8) : Except FileError Disk := do
  if path.endsWith "/" then
    let _ ← disk.resolve path ((names path).dropLast ++ ["."])
    throw (.isDirectory path)
  let place ← disk.resolve path (names path)
  if disk.holdsNames place then throw (.isDirectory path)
  match place with
  | .inside place =>
      return { disk with
        files := (place, contents) :: disk.files.filter fun file => file.1 != place }
  | _ => return disk

/-- The files that are new or different from those of another disk, in the
    order of their paths. -/
def changesFrom (disk before : Disk) : List (String × List UInt8) :=
  let changed := disk.files.filter fun file => before.file? file.1 != some file.2
  (changed.map fun file => ("/".intercalate file.1, file.2)).mergeSort
    fun a b => decide (a.1 ≤ b.1)

end Disk

end PathScript
