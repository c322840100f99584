import PathScript.Import

/-!
# The Log

What a run has to tell to someone who asked for details: every operator and
procedure as it is invoked, what was dropped, painted or passed over, and how
the run ended.

The log is a rendering of the events of a run and decides nothing.

## Main definitions

* `LogLine`: A line of the log.
* `Event.logLine`: The line for an event.
* `Run.log`: The log of an import.
-/

namespace PathScript

/-- How much a line of the log matters. -/
inductive LogLevel where
  | debug
  | info
  deriving DecidableEq

/-- The name of a level. -/
def LogLevel.name : LogLevel → String
  | .debug => "DEBUG"
  | .info => "INFO"

/-- A line of the log: a message and the part of the program it comes from. -/
structure LogLine where
  level : LogLevel
  channel : String
  message : String
  deriving DecidableEq

/-- The written form of a line. -/
def LogLine.text (l : LogLine) : String :=
  l.level.name ++ " postpath." ++ l.channel ++ ": " ++ l.message

/-- The line for an event. -/
def Event.logLine : Event → LogLine
  | .invoked op => ⟨.debug, "operators.control", "exec --" ++ op.name ++ "--"⟩
  | .entered name body =>
      ⟨.debug, "operators.control", "exec " ++ name ++ " " ++ Value.bodyText body⟩
  | .grayDropped level =>
      ⟨.debug, "operators.color_ops", "ignoring gray level " ++ level.compact⟩
  | .colorDropped red green blue =>
      ⟨.debug, "operators.color_ops",
        "ignoring rgb color " ++ red.compact ++ " " ++ green.compact ++ " " ++ blue.compact⟩
  | .painted p path =>
      ⟨.debug, "operators.painting",
        p.name ++ ": flushing " ++ toString path.length ++ " instruction(s)"⟩
  | .paintDropped path =>
      ⟨.debug, "operators.painting",
        "eofill: discarding " ++ toString path.length ++ " instruction(s)"⟩
  | .skipped count marker line =>
      ⟨.debug, "core.tokenizer",
        "skipped " ++ toString count ++ " line(s) up to " ++ marker ++ " at line "
          ++ toString line⟩

/-- The lines that say how a run ended. -/
def Run.endLog (r : Run) : List LogLine :=
  match r.fault? with
  | some (.report report) => [⟨.debug, "core.error", "raising " ++ report.message⟩]
  | some _ => []
  | none =>
      let m := r.machine
      let imported : LogLine :=
        ⟨.info, "importer",
          "imported " ++ toString m.drawing.length ++ " instruction(s) from "
            ++ toString (m.line?.getD 0) ++ " line(s)"⟩
      let left : LogLine :=
        ⟨.debug, "importer",
          toString m.operands.length ++ " value(s) left on the operand stack: "
            ++ Value.stackText (m.operands.map (·.value))⟩
      if m.operands.isEmpty then [imported] else [imported, left]

/-- The log of an import. -/
def Run.log (r : Run) : List LogLine := r.events.map Event.logLine ++ r.endLog

end PathScript
