import PathScript.Output
import PathScript.Settings
import PathScript.Text.Digit
import PathScript.Text.Quoted

/-!
# Options

What the words of a command line mean.

A word is an option if it begins with a minus sign and is not a minus sign
alone, a negative number, or a word with a blank in it that spells no option.
A long option may be shortened as long as one option only fits, and its value
may follow an equals sign. Short options may be run together, the last of them
with its value. A double minus sign ends the options and means nothing itself.
Written in one word with an option, it leaves the option without a value.

Input files are one uninterrupted run of words that are not options. What
comes after a later option is not expected, and neither is an option that
does not exist; both are collected and reported together at the end.

Every word is classified before any is acted on, so a shortened option that
fits several is reported before anything else. After that the words act from
left to right, and the first that cannot act, or that asks for the help text
or the version, ends the reading.

## Main definitions

* `Switch`: The options.
* `Word`: A classified word.
* `Word.classify`: What a word means.
* `readCount?`: A whole number in the digits of any script.
* `Given`: What is said about an option that takes a value.
* `Arguments`: What a command line asks for.
* `Arguments.parse`: The meaning of a command line.
-/

namespace PathScript

/-- The options. -/
inductive Switch where
  | help
  | version
  | output
  | format
  | verbose
  | encoding
  | prologMarker
  | maxStack
  deriving DecidableEq

namespace Switch

/-- Every option. -/
def all : List Switch :=
  [.help, .version, .output, .format, .verbose, .encoding, .prologMarker, .maxStack]

/-- The ways to write an option, the short one first if there is one. -/
def spellings : Switch → List String
  | .help => ["-h", "--help"]
  | .version => ["-V", "--version"]
  | .output => ["-o", "--output"]
  | .format => ["-f", "--format"]
  | .verbose => ["-v", "--verbose"]
  | .encoding => ["--encoding"]
  | .prologMarker => ["--prolog-marker"]
  | .maxStack => ["--max-stack"]

/-- Whether an option takes a value. -/
def takesValue : Switch → Bool
  | .help => false
  | .version => false
  | .verbose => false
  | _ => true

/-- The option as messages name it. -/
def label (s : Switch) : String := "/".intercalate s.spellings

/-- The option with a spelling. -/
def spelled? (spelling : String) : Option Switch :=
  all.find? fun s => s.spellings.contains spelling

/-- The option with a short spelling. -/
def short? (c : Char) : Option Switch := spelled? (String.ofList ['-', c])

/-- The options, and their spellings, that a word is the beginning of. -/
def completions (start : String) : List (Switch × String) :=
  all.flatMap fun s => (s.spellings.filter (start.isPrefixOf ·)).map (s, ·)

end Switch

/-- How the reading of a command line ends early. -/
inductive Ending where
  | help
  | version
  | misuse (message : String)
  deriving DecidableEq

/-- An option that cannot be used as it was. -/
def Ending.about (s : Switch) (message : String) : Ending :=
  .misuse ("argument " ++ s.label ++ ": " ++ message)

/-- A classified word. -/
inductive Word where
  /-- A word that is not an option. -/
  | plain (text : String)
  /-- The double minus sign that ends the options. -/
  | terminator
  /-- An option, whether it was written in the short way, and what was written
      in one word with it. -/
  | option (s : Switch) (short : Bool) (attached : Option String)
  /-- An option that does not exist. -/
  | unknown (text : String)
  deriving DecidableEq

namespace Word

/-- A text split at its first equals sign. -/
def splitEquals (text : String) : Option (String × String) :=
  let chars := text.toList
  match chars.dropWhile (· != '=') with
  | _ :: value => some (String.ofList (chars.takeWhile (· != '=')), String.ofList value)
  | [] => none

/-- Whether a text is a negative number: a minus sign and digits, or digits on
    the right of a point and any number on its left. A line end after it does
    not matter. -/
def isNegativeNumber (text : String) : Bool :=
  let isDigit (c : Char) : Bool := (digitValue? c).isSome
  match text.toList with
  | '-' :: rest =>
      let rest := if rest.getLast? == some '\n' then rest.dropLast else rest
      match rest.dropWhile isDigit with
      | [] => !rest.isEmpty
      | '.' :: fraction => !fraction.isEmpty && fraction.all isDigit
      | _ => false
  | _ => false

/-- What a word means that begins with a minus sign and is no full spelling of
    an option, by itself or before an equals sign. -/
def classifyRest (text : String) : Except Ending Word :=
  let fallback : Word :=
    if isNegativeNumber text || text.toList.contains ' ' then .plain text else .unknown text
  match text.toList with
  | '-' :: '-' :: _ =>
      let (start, attached) :=
        match splitEquals text with
        | some (start, value) => (start, some value)
        | none => (text, none)
      match Switch.completions start with
      | [] => .ok fallback
      | [(s, _)] => .ok (.option s false attached)
      | several =>
          .error (.misuse ("ambiguous option: " ++ text ++ " could match "
            ++ ", ".intercalate (several.map (·.2))))
  | '-' :: c :: rest =>
      match Switch.short? c with
      | some s => .ok (.option s true (some (String.ofList rest)))
      | none => .ok fallback
  | _ => .ok (.plain text)

/-- What a word means, apart from the double minus sign. -/
def classify (text : String) : Except Ending Word :=
  if !text.startsWith "-" then .ok (.plain text)
  else
    match Switch.spelled? text with
    | some s => .ok (.option s (!text.startsWith "--") none)
    | none =>
        match splitEquals text with
        | some (spelling, value) =>
            match Switch.spelled? spelling with
            | some s => .ok (.option s (!spelling.startsWith "--") (some value))
            | none => classifyRest text
        | none => classifyRest text

/-- The meanings of the words of a command line. -/
def classifyAll : List String → Except Ending (List Word)
  | [] => .ok []
  | text :: rest =>
      if text = "--" then .ok (.terminator :: rest.map .plain)
      else do
        let word ← classify text
        let words ← classifyAll rest
        return word :: words

end Word

/-- The most digits a count may have. -/
def mostDigits : Nat := 4300

/-- The value of digits that may be divided by single underscores. -/
def readDigits? (text : List Char) : Option Nat :=
  let groups := (String.ofList text).splitOn "_"
  if groups.any (·.isEmpty) then none
  else do
    let digits ← (groups.flatMap String.toList).mapM digitValue?
    if digits.length ≤ mostDigits then some (digits.foldl (fun n d => n * 10 + d) 0) else none

/-- A whole number with an optional sign, in the digits of any script and with
    blanks around it. -/
def readCount? (text : String) : Option Int :=
  match trimBlanks text.toList with
  | '-' :: digits => (readDigits? digits).map fun n => -(n : Int)
  | '+' :: digits => (readDigits? digits).map Int.ofNat
  | digits => (readDigits? digits).map Int.ofNat

/-- What is said about an option that takes a value. -/
inductive Given (α : Type) where
  /-- The option is not there. -/
  | absent
  /-- The option is there with a double minus sign in place of a value. -/
  | blank
  /-- The option is there with a value. -/
  | value (a : α)
  deriving DecidableEq

/-- The value of an option, if it has one. -/
def Given.value? {α : Type} : Given α → Option α
  | .value a => some a
  | _ => none

/-- The choice an option makes about a setting, if the option is there. -/
def Given.choice? {α : Type} (choice : α → Settings.Choice) : Given α → Option Settings.Choice
  | .absent => none
  | .blank => some .blank
  | .value a => some (choice a)

/-- What a command line asks for. -/
structure Arguments where
  inputs : List String
  output : Given String
  format : Given OutputFormat
  verbose : Bool
  encoding : Given String
  prologMarker : Given String
  maxStack : Given Int
  deriving DecidableEq

namespace Arguments

/-- What a command line without options asks for. -/
def plain (inputs : List String) : Arguments where
  inputs := inputs
  output := .absent
  format := .absent
  verbose := false
  encoding := .absent
  prologMarker := .absent
  maxStack := .absent

/-- The form in which drawings are written. -/
def outputFormat (a : Arguments) : OutputFormat := a.format.value?.getD .text

/-- The file that drawings are written to, unless they are printed. A file
    with an empty name is none. -/
def outputFile? (a : Arguments) : Option String := a.output.value?.filter (!·.isEmpty)

/-- The settings that a command line chooses. -/
def choices (a : Arguments) : List (String × Settings.Choice) :=
  ((a.encoding.choice? .text).map ("Encoding", ·)).toList
    ++ ((a.prologMarker.choice? .text).map ("PrologMarker", ·)).toList
    ++ ((a.maxStack.choice? .number).map ("MaxOpStack", ·)).toList

/-- The settings of a run that a command line asks for. -/
def settings (a : Arguments) : Settings :=
  a.choices.foldl (fun s choice => s.choose choice.1 choice.2) .standard

/-- What has been read of a command line: the input files, how far their run
    has got, the words that are not expected, and the options. -/
structure Draft where
  arguments : Arguments
  /-- Whether an option has come after the first input file. -/
  closed : Bool
  /-- The words that are not expected. -/
  extras : List String

namespace Draft

/-- Nothing read yet. -/
def start : Draft := ⟨.plain [], false, []⟩

/-- A word that is not an option. -/
def addPlain (d : Draft) (text : String) : Draft :=
  if d.closed then { d with extras := d.extras ++ [text] }
  else { d with arguments := { d.arguments with inputs := d.arguments.inputs ++ [text] } }

/-- An option ends the run of input files, if it has begun. -/
def close (d : Draft) : Draft := { d with closed := !d.arguments.inputs.isEmpty }

/-- The double minus sign. It is unexpected only after the run of input files
    has ended. -/
def addTerminator (d : Draft) : Draft :=
  if d.closed then { d with extras := d.extras ++ ["--"] } else d

/-- Acts on an option that takes no value. -/
def flag (d : Draft) : Switch → Except Ending Draft
  | .help => .error .help
  | .version => .error .version
  | _ => .ok { d with arguments := { d.arguments with verbose := true } }

/-- Acts on an option without a value where one is expected. -/
def assignBlank (d : Draft) : Switch → Except Ending Draft
  | .output => .ok { d with arguments := { d.arguments with output := .blank } }
  | .encoding => .ok { d with arguments := { d.arguments with encoding := .blank } }
  | .prologMarker => .ok { d with arguments := { d.arguments with prologMarker := .blank } }
  | .format => .ok { d with arguments := { d.arguments with format := .blank } }
  | .maxStack => .ok { d with arguments := { d.arguments with maxStack := .blank } }
  | s => d.flag s

/-- Acts on an option with its value. -/
def assignValue (d : Draft) (s : Switch) (value : String) : Except Ending Draft :=
  let set (a : Arguments) : Except Ending Draft := .ok { d with arguments := a }
  match s with
  | .output => set { d.arguments with output := .value value }
  | .encoding => set { d.arguments with encoding := .value value }
  | .prologMarker => set { d.arguments with prologMarker := .value value }
  | .format =>
      match OutputFormat.ofName? value with
      | some f => set { d.arguments with format := .value f }
      | none =>
          .error (.about s ("invalid choice: " ++ quoted value ++ " (choose from "
            ++ ", ".intercalate (OutputFormat.all.map fun f => quoted f.name) ++ ")"))
  | .maxStack =>
      match readCount? value with
      | none => .error (.about s ("invalid integer: '" ++ value ++ "'"))
      | some n =>
          if n < 0 then .error (.about s ("must not be negative: '" ++ value ++ "'"))
          else set { d.arguments with maxStack := .value n }
  | _ => d.flag s

/-- Acts on an option with what stands in the place of its value. -/
def assign (d : Draft) (s : Switch) (text : String) : Except Ending Draft :=
  if text = "--" then d.assignBlank s else d.assignValue s text

end Draft

/-- Options run together in one word: those before the last, the last, and the
    value written with it. -/
structure Bundle where
  flags : List Switch
  last : Switch
  value : Option String

/-- The refusal of what is written in one word with an option that takes no
    value. -/
def ignoredText (s : Switch) (text : List Char) : Ending :=
  .about s ("ignored explicit argument " ++ quoted (String.ofList text))

/-- The options in a word that begins with an option and goes on with the
    text. -/
def unbundle (s : Switch) (short : Bool) (text : List Char) : Except Ending Bundle :=
  if s.takesValue then .ok ⟨[], s, some (String.ofList text)⟩
  else if !short then .error (ignoredText s text)
  else
    match text with
    | [] => .error (ignoredText s [])
    | c :: rest =>
        match Switch.short? c with
        | none => .error (ignoredText s (c :: rest))
        | some next =>
            if rest.isEmpty then .ok ⟨[s], next, none⟩
            else (unbundle next true rest).map fun b => { b with flags := s :: b.flags }

/-- The options that a word stands for. -/
def Bundle.ofOption (s : Switch) (short : Bool) : Option String → Except Ending Bundle
  | none => .ok ⟨[], s, none⟩
  | some attached => unbundle s short attached.toList

/-- Reads classified words from left to right. -/
def read (d : Draft) : List Word → Except Ending Draft
  | [] => .ok d
  | .plain text :: rest => read (d.addPlain text) rest
  | .terminator :: rest => read d.addTerminator rest
  | .unknown text :: rest => read { d.close with extras := d.extras ++ [text] } rest
  | .option s short attached :: rest => do
      let bundle ← Bundle.ofOption s short attached
      if bundle.last.takesValue then
        match bundle.value, rest with
        | some value, rest => do
            let d ← bundle.flags.foldlM Draft.flag d.close
            read (← d.assign bundle.last value) rest
        | none, .plain value :: rest => do
            let d ← bundle.flags.foldlM Draft.flag d.close
            read (← d.assign bundle.last value) rest
        | none, _ => .error (.about bundle.last "expected one argument")
      else do
        let d ← (bundle.flags ++ [bundle.last]).foldlM Draft.flag d.close
        read d rest

/-- The meaning of a command line. -/
def parse (words : List String) : Except Ending Arguments := do
  let classified ← Word.classifyAll words
  let d ← read .start classified
  if d.arguments.inputs.isEmpty then
    throw (.misuse "the following arguments are required: inputfiles")
  else if !d.extras.isEmpty then
    throw (.misuse ("unrecognized arguments: " ++ " ".intercalate d.extras))
  else return d.arguments

end Arguments

end PathScript
