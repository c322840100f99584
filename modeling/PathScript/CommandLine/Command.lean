import PathScript.CommandLine.Usage
import PathScript.Log
import PathScript.Surroundings

/-!
# The Command

The command as a whole: it reads a command line, imports every input in turn,
and writes the drawings if all of them succeeded.

It is all or nothing. The first input that fails stops it with a message and
an exit code, nothing is written, and later inputs are not looked at. Some
failures are not the command's to report: arithmetic without a result,
undecodable input, a codec asked for without a name, and a path that no file
can have. They end it as they are.

The command is a function of the files and the standard input, whatever its
surroundings are. An input named `-` takes what is on the standard input, all of
it, so that a second one finds nothing left.

## Main definitions

* `Batch`: What comes of importing inputs in turn.
* `importAll`: Importing inputs in turn.
* `Breakage`: What the command does not report itself.
* `Conclusion`: How the command ends.
* `Delivery`: What is left to do when everything has been read.
* `Preparation`: What the command does before it writes.
* `Facilities.prepare`: Everything up to the writing.
* `Surroundings.command`: The whole command.
* `runCommand`: The command with the files of a disk.
-/

namespace PathScript

/-- Why an input could not be imported. -/
inductive InputError (ε : Type) where
  | file (e : ε)
  | fault (f : Fault)

/-- What comes of importing inputs in turn: the log, and the drawings or the
    first failure and the input it belongs to. -/
structure Batch (ε : Type) where
  log : List LogLine
  drawings : Except (String × InputError ε) (List (List Instruction))

/-- The contents of an input and what is left on the standard input. -/
def openInput {ε : Type} (read : String → Except ε (List UInt8)) (stdin : List UInt8)
    (input : String) : Except ε (List UInt8 × List UInt8) :=
  if input = "-" then .ok (stdin, []) else (read input).map (·, stdin)

/-- The line of the log for an input that has been imported. -/
def importedLine (input : String) (drawing : List Instruction) : LogLine :=
  ⟨.debug, "cli", input ++ ": " ++ toString drawing.length ++ " instruction(s)"⟩

/-- Imports inputs in turn, up to the first that fails. What they hold is read and
    run by the functions given. -/
def importAll {ε : Type} (read : String → Except ε (List UInt8)) (run : List UInt8 → Run)
    (stdin : List UInt8) : List String → Batch ε
  | [] => ⟨[], .ok []⟩
  | input :: inputs =>
      match openInput read stdin input with
      | .error e => ⟨[], .error (input, .file e)⟩
      | .ok (contents, stdin) =>
          let r := run contents
          match r.drawing with
          | .error f => ⟨r.log, .error (input, .fault f)⟩
          | .ok drawing =>
              let rest := importAll read run stdin inputs
              ⟨r.log ++ importedLine input drawing :: rest.log,
                rest.drawings.map (drawing :: ·)⟩

/-- What the command does not report itself. -/
inductive Breakage (ε : Type) where
  | fault (f : Fault)
  | file (e : ε)
  /-- A codec was asked for without a name. -/
  | blankCodec
  deriving DecidableEq

/-- The wording of what the command does not report itself. -/
def Breakage.message {ε : Type} (w : Facilities ε) : Breakage ε → String
  | .fault f => f.message
  | .file e => w.message e
  | .blankCodec => "a codec was asked for without a name"

/-- How the command ends. -/
inductive Conclusion (ε : Type) where
  /-- Reading the command line settled it. -/
  | exited (code : Nat)
  /-- The command ran and returned a status. -/
  | returned (status : Nat)
  /-- A failure ended it that is not its own to report. -/
  | broken (b : Breakage ε)
  deriving DecidableEq

/-- What is left to do when everything has been read. -/
inductive Delivery (ε : Type) where
  /-- Nothing but to print and to end. -/
  | finish (conclusion : Conclusion ε) (stdout : String)
  /-- To write the drawings, to a file if one is named. -/
  | write (file : Option String) (output : String)

/-- What the command does before it writes: what it prints on the error
    output, and what is left to do. -/
structure Preparation (ε : Type) where
  stderr : String
  delivery : Delivery ε

/-- A message of the command. -/
def errorLine (message : String) : String := "PostPath Error: " ++ message ++ "\n"

/-- The log as printed, if the command line asks for it. -/
def printLog (verbose : Bool) (log : List LogLine) : String :=
  if verbose then String.join (log.map fun l => l.text ++ "\n") else ""

section

variable {δ ε : Type}

/-- The end of a command that asks for a codec that there is not. -/
def Facilities.missingCodec? (w : Facilities ε) (a : Arguments) : Option (Preparation ε) :=
  match a.encoding with
  | .absent => none
  | .blank => some ⟨"", .finish (.broken .blankCodec) ""⟩
  | .value name =>
      match w.codec name with
      | .ok _ => none
      | .error (.unknownCodec _) =>
          some ⟨errorLine ("unknown encoding '" ++ name ++ "'"), .finish (.returned 1) ""⟩
      | .error e => some ⟨"", .finish (.broken (.fault (.decoding e))) ""⟩

/-- Everything up to the writing, with a way to read files. -/
def Facilities.prepare (w : Facilities ε) (read : String → Except ε (List UInt8))
    (stdin : List UInt8) (words : List String) : Preparation ε :=
  match Arguments.parse words with
  | .error ending =>
      let report := ending.report
      ⟨report.stderr, .finish (.exited report.code) report.stdout⟩
  | .ok arguments =>
      match w.missingCodec? arguments with
      | some ending => ending
      | none =>
          let batch := importAll read (w.run arguments.settings) stdin arguments.inputs
          let log := printLog arguments.verbose batch.log
          match batch.drawings with
          | .error (_, .file e) =>
              if w.isReported e then ⟨log ++ errorLine (w.message e), .finish (.returned 1) ""⟩
              else ⟨log, .finish (.broken (.file e)) ""⟩
          | .error (input, .fault (.report r)) =>
              ⟨log ++ errorLine (input ++ ": " ++ r.message), .finish (.returned 1) ""⟩
          | .error (_, .fault f) => ⟨log, .finish (.broken (.fault f)) ""⟩
          | .ok drawings =>
              ⟨log, .write arguments.outputFile? (arguments.outputFormat.write drawings)⟩

/-- What is left when the command has ended. -/
structure Aftermath (δ ε : Type) where
  conclusion : Conclusion ε
  stdout : String
  stderr : String
  disk : δ

/-- The whole command. -/
def Surroundings.command (w : Surroundings δ ε) (disk : δ) (stdin : List UInt8)
    (words : List String) : Aftermath δ ε :=
  let preparation := w.prepare (w.read disk) stdin words
  match preparation.delivery with
  | .finish conclusion stdout => ⟨conclusion, stdout, preparation.stderr, disk⟩
  | .write none output => ⟨.returned 0, output, preparation.stderr, disk⟩
  | .write (some path) output =>
      match w.write disk path output.toUTF8.toList with
      | (none, written) => ⟨.returned 0, "", preparation.stderr, written⟩
      | (some e, left) =>
          if w.isReported e then
            ⟨.returned 1, "", preparation.stderr ++ errorLine (w.message e), left⟩
          else ⟨.broken (.file e), "", preparation.stderr, left⟩

end

/-- The whole command with the files of a disk. -/
def runCommand (disk : Disk) (stdin : List UInt8) (words : List String) :
    Aftermath Disk FileError :=
  Disk.surroundings.command disk stdin words

end PathScript
