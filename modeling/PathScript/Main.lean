import PathScript.CommandLine.Command

/-!
# The Executable

The command at the terminal: files and streams around `Facilities.prepare`.

The inputs are read before anything else happens, so that what the command
does with them is the pure function it is everywhere else; a file that cannot
be read counts only if the command gets to it.
-/

namespace PathScript

/-- Why the system would not open a file. -/
def openError (path : String) : IO.Error → FileError
  | .inappropriateType .. => .isDirectory path
  | _ => .missing path

/-- The contents of a file, or why it could not be read. -/
def readContents (path : String) : IO (Except FileError (List UInt8)) := do
  try
    let contents ← IO.FS.readBinFile path
    return .ok contents.toList
  catch e => return .error (openError path e)

/-- The inputs that a command line names. -/
def namedInputs (words : List String) : List String :=
  match Arguments.parse words with
  | .ok arguments => arguments.inputs
  | .error _ => []

/-- Everything on a stream, after what has been read of it. -/
partial def readAll (stream : IO.FS.Stream) (before : ByteArray) : IO ByteArray := do
  let chunk ← stream.read 65536
  if chunk.isEmpty then return before else readAll stream (before ++ chunk)

/-- Prints and writes what is left to do, and gives the exit code. -/
def deliver : Delivery FileError → IO UInt32
  | .finish (.exited code) stdout => do
      IO.print stdout
      return code.toUInt32
  | .finish (.returned status) stdout => do
      IO.print stdout
      return status.toUInt32
  | .finish (.broken b) _ => do
      IO.eprintln (b.message .standard)
      return 1
  | .write none output => do
      IO.print output
      return 0
  | .write (some path) output => do
      try
        IO.FS.writeFile path output
        return 0
      catch e =>
        IO.eprint (errorLine (openError path e).message)
        return 1

end PathScript

open PathScript in
/-- Runs the command on the words of the command line. -/
def main (words : List String) : IO UInt32 := do
  let inputs := namedInputs words
  let files ← inputs.mapM fun path => return (path, ← readContents path)
  let stdin ← if inputs.contains "-" then readAll (← IO.getStdin) .empty else pure .empty
  let read (path : String) : Except FileError (List UInt8) :=
    ((files.find? fun file => file.1 == path).map (·.2)).getD (.error (.missing path))
  let preparation := Facilities.standard.prepare read stdin.toList words
  IO.eprint preparation.stderr
  deliver preparation.delivery
