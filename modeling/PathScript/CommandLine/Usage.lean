import PathScript.CommandLine.Options

/-!
# Help

The texts that describe the command to its users.

## Main definitions

* `programVersion`: The version of the program.
* `usage`: How to call the command.
* `helpText`: What the options mean.
* `Ending.report`: What is printed when the reading of a command line ends
  early, and the exit code.
-/

namespace PathScript

/-- The version of the program. -/
def programVersion : String := "0.1.0"

/-- How to call the command. -/
def usage : String :=
  "usage: postpath [-h] [-V] [-o OUTPUTFILE] [-f \x7btext,json\x7d] [-v]\n"
    ++ "                [--encoding ENCODING] [--prolog-marker PROLOG_MARKER]\n"
    ++ "                [--max-stack MAX_STACK]\n"
    ++ "                inputfiles [inputfiles ...]\n"

/-- What the options mean. -/
def helpText : String :=
  usage
    ++ "\n"
    ++ "PostPath - PostScript Path Importer\n"
    ++ "\n"
    ++ "positional arguments:\n"
    ++ "  inputfiles            PostScript input files to import\n"
    ++ "\n"
    ++ "options:\n"
    ++ "  -h, --help            show this help message and exit\n"
    ++ "  -V, --version         show program's version number and exit\n"
    ++ "  -o OUTPUTFILE, --output OUTPUTFILE\n"
    ++ "                        Write instructions to this file instead of stdout\n"
    ++ "  -f \x7btext,json\x7d, --format \x7btext,json\x7d\n"
    ++ "                        Output format (default: text)\n"
    ++ "  -v, --verbose         Enable verbose output\n"
    ++ "  --encoding ENCODING   Codec used to decode the input (default: latin-1)\n"
    ++ "  --prolog-marker PROLOG_MARKER\n"
    ++ "                        Line up to which findfont skips font definitions\n"
    ++ "                        (default: %%EndProlog)\n"
    ++ "  --max-stack MAX_STACK\n"
    ++ "                        Operand stack depth limit, 0 for unlimited (default:\n"
    ++ "                        0)\n"
    ++ "\n"
    ++ "Use '-' as an input file to read from stdin.\n"

/-- What a command prints and how it exits. -/
structure Transcript where
  code : Nat
  stdout : String
  stderr : String
  deriving DecidableEq

/-- What is printed when the reading of a command line ends early. -/
def Ending.report : Ending → Transcript
  | .help => ⟨0, helpText, ""⟩
  | .version => ⟨0, "PostPath " ++ programVersion ++ "\n", ""⟩
  | .misuse message => ⟨2, "", usage ++ "postpath: error: " ++ message ++ "\n"⟩

end PathScript
