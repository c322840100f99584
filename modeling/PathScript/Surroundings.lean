import PathScript.Import

/-!
# Surroundings

What a command finds around it and has no say in: the codecs that are there, the
files, and why a file could not be opened. None of it is fixed here. Codecs are
asked for by any name and decode as they like. Files are a value of some type, and
reading or writing one may fail in as many ways as there are values of another.
Writing may fail halfway and leave something behind.

Two things are taken for granted. A file that can be opened can be read to its
end, and files do not change while they are being read.

Files that are to be relied on keep what has been written. `Surroundings.Filing`
says what that means: the file that was written reads as what was written to it,
and a path that does not lead to this file reads as before. Which paths lead to
one file, and which to something that keeps nothing, is for the files to say.

The files of a `Disk` and the codecs of `Codec` are the surroundings in which the
program is run here.

## Main definitions

* `Decoder`: A way to read bytes as text.
* `Facilities`: Codecs, and what there is to say about file errors.
* `Facilities.run`: The run of a program in bytes.
* `Surroundings`: Files as well.
* `Surroundings.Filing`: Files that keep what is written to them.
* `Facilities.standard`, `Disk.surroundings`: The codecs and the files there are here.

## Theorems

* `Facilities.run_standard`: Running a program is importing it.
-/

namespace PathScript

/-- A way to read bytes as text. -/
abbrev Decoder := List UInt8 → Except DecodeError (List Char)

/-- The codecs that there are, and what there is to say about file errors. -/
structure Facilities (ε : Type) where
  /-- The codec with a given name, or why there is none. -/
  codec : String → Except DecodeError Decoder
  /-- The wording of a file error. -/
  message : ε → String
  /-- Whether a file error is an answer of the file system, as opposed to a path
      that cannot even be asked about. -/
  isReported : ε → Bool

/-- Decoding under the codec with a given name. -/
def Facilities.decode {ε : Type} (w : Facilities ε) (name : String) : Decoder :=
  match w.codec name with
  | .ok decode => decode
  | .error e => fun _ => .error e

/-- The run of a program in bytes from its beginning. -/
def Facilities.run {ε : Type} (w : Facilities ε) (settings : Settings) (program : List UInt8) :
    Run :=
  (Machine.beginning settings (.decoded (w.decode settings.encoding) program)).runInput

/-- Codecs and files. The files are a value of one type, and file errors are values of
    another. -/
structure Surroundings (δ ε : Type) extends Facilities ε where
  /-- What is in the file at a path, or why it cannot be opened. -/
  read : δ → String → Except ε (List UInt8)
  /-- The files after writing to a path, and why that failed if it did. -/
  write : δ → String → List UInt8 → Option ε × δ

/-- What makes files out of places to read and write. -/
structure Surroundings.Filing {δ ε : Type} (w : Surroundings δ ε) where
  /-- Two paths lead to one file. -/
  SameFile : δ → String → String → Prop
  /-- A path leads to something that keeps what is written to it. -/
  Keeps : δ → String → Prop
  /-- What was written can be read. -/
  read_written : ∀ {before after : δ} {path : String} {contents : List UInt8},
    w.write before path contents = (none, after) → Keeps before path →
      w.read after path = .ok contents
  /-- Other files are what they were, even if writing failed. -/
  read_other : ∀ {before after : δ} {path other : String} {contents : List UInt8} {e : Option ε},
    w.write before path contents = (e, after) → ¬SameFile before path other →
      ∀ found, w.read after other = .ok found ↔ w.read before other = .ok found

/-- The codecs there are here. -/
def Facilities.standard : Facilities FileError where
  codec name := (Codec.find name).map Codec.decode
  message := FileError.message
  isReported := FileError.isReported

/-- Running a program is importing it. -/
theorem Facilities.run_standard (settings : Settings) (program : List UInt8) :
    standard.run settings program = importSource settings (.bytes program) := by
  have hdecode : standard.decode settings.encoding = decodeNamed settings.encoding := by
    funext bytes
    dsimp only [decode, decodeNamed, standard]
    cases Codec.find settings.encoding <;> rfl
  rw [run, hdecode]
  rfl

/-- The files of a disk. A file that could not be written is not there. -/
def Disk.surroundings : Surroundings Disk FileError where
  toFacilities := .standard
  read := Disk.read
  write disk path contents :=
    match disk.write path contents with
    | .ok written => (none, written)
    | .error e => (some e, disk)

end PathScript
