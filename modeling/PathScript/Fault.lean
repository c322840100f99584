import PathScript.Text.Codec

/-!
# Faults

Everything that can stop a program.

Most faults are *reports*: they have one of a fixed list of kinds, name the
command that failed and the line being read, and may say more. The others come
from outside the language: arithmetic with no result, a line that cannot be
decoded, and three that only a caller can bring about, a lexeme with no
characters, and reading or passing over lines where there is no source.

An operator does not know the line being read, nor how its name is to be
reported. It states a *complaint*, which becomes a fault where both are known.

## Main definitions

* `ErrorKind`: The kinds of reports.
* `Report`: What went wrong, in which command, on which line.
* `Report.message`: Its wording.
* `Fault`: Everything that can stop a program.
* `Complaint`: What an operator objects to.
-/

namespace PathScript

/-- The kinds of reports. -/
inductive ErrorKind where
  | general
  | lexical
  | unknownToken
  | unmatchedBracket
  | undefined
  | typeMismatch
  | stackUnderflow
  | numberFormat
  | rangeCheck
  | stackOverflow
  | limitCheck
  | execStackOverflow
  deriving DecidableEq

namespace ErrorKind

/-- The name a kind is reported by. -/
def name : ErrorKind → String
  | .general => "error"
  | .lexical => "lexerror"
  | .unknownToken => "unknowntoken"
  | .unmatchedBracket => "unmatchedbracket"
  | .undefined => "undefined"
  | .typeMismatch => "typecheck"
  | .stackUnderflow => "stackunderflow"
  | .numberFormat => "numberformat"
  | .rangeCheck => "rangecheck"
  | .stackOverflow => "stackoverflow"
  | .limitCheck => "limitcheck"
  | .execStackOverflow => "execstackoverflow"

/-- The kinds that have a number, in the order of their numbers from zero. -/
def numbered : List ErrorKind :=
  [.lexical, .unknownToken, .unmatchedBracket, .undefined, .typeMismatch, .stackUnderflow,
   .numberFormat, .rangeCheck, .stackOverflow, .limitCheck, .execStackOverflow]

/-- The kind with a given number. Negative numbers count from the end. -/
def ofCode? : Int → Option ErrorKind
  | .ofNat code => numbered[code]?
  | .negSucc code => numbered.reverse[code]?

end ErrorKind

/-- What went wrong, in which command, on which line, and anything more there
    is to say. -/
structure Report where
  kind : ErrorKind
  command : Option String
  line : Option Int
  detail : Option String
  deriving DecidableEq

/-- The wording of a report. An empty detail is not written. -/
def Report.message (r : Report) : String :=
  let command := r.command.elim "" fun c => " in --" ++ c ++ "--"
  let line := r.line.elim "" fun n => " (line " ++ toString n ++ ")"
  let detail := r.detail.elim "" fun d => if d.isEmpty then "" else ": " ++ d
  "/" ++ r.kind.name ++ command ++ line ++ detail

/-- The name a command is reported by: a first `ps_` is not part of it. -/
def commandName (command : String) : String :=
  match command.toList with
  | 'p' :: 's' :: '_' :: rest => String.ofList rest
  | _ => command

/-- Everything that can stop a program. -/
inductive Fault where
  | report (r : Report)
  /-- Decimal arithmetic has no result. -/
  | undefinedArithmetic
  /-- A line cannot be decoded. -/
  | decoding (e : DecodeError)
  /-- A lexeme has no characters. -/
  | emptyLexeme
  /-- There is no source to read a lexeme from. -/
  | nothingToRead
  /-- There is no source with lines to pass over. -/
  | nothingToSkip
  deriving DecidableEq

/-- The wording of a fault. -/
def Fault.message : Fault → String
  | .report r => r.message
  | .undefinedArithmetic => "decimal arithmetic has no result"
  | .decoding e => e.message
  | .emptyLexeme => "lexeme without characters"
  | .nothingToRead => "no source to read from"
  | .nothingToSkip => "no source with lines to pass over"

/-- What an operator objects to. -/
inductive Complaint where
  | report (kind : ErrorKind) (detail : Option String)
  | undefinedArithmetic
  deriving DecidableEq

namespace Complaint

/-- A complaint with nothing more to say. -/
def plain (kind : ErrorKind) : Complaint := .report kind none

/-- A complaint with a detail. -/
def because (kind : ErrorKind) (detail : String) : Complaint := .report kind (some detail)

/-- The complaint about operands that do not fit: there are too few of them, or
    else one has the wrong type. -/
def operands {α : Type} (needed : Nat) (found : List α) : Complaint :=
  if found.length < needed then .plain .stackUnderflow else .plain .typeMismatch

/-- The fault that a complaint about a command on a line amounts to. -/
def toFault (command : String) (line : Option Int) : Complaint → Fault
  | .report kind detail => .report ⟨kind, some (commandName command), line, detail⟩
  | .undefinedArithmetic => .undefinedArithmetic

end Complaint

end PathScript
