import PrefixCalc.Batch
import PrefixCalc.CommandLine.Request

/-!
# What the program answers

The answer to a command line, given the bytes it may ask for: two texts and an exit code.  The code
is 0 for success, 1 when a line failed or the file could not be read, and 2 for arguments that make
no sense.  What is written when no batch is run is a parameter (`Wording`).
-/

namespace PrefixCalc
namespace CommandLine

/-- The texts written and the exit code. -/
structure Output where
  stdout : String
  stderr : String
  exitCode : UInt8
  deriving DecidableEq, Repr

/-- The output of a batch. -/
def Output.ofReport (report : Report) : Output where
  stdout := report.stdout
  stderr := report.stderr
  exitCode := if report.ok then 0 else 1

/-- The texts that are written when no batch is run.  They belong to the reading of arguments, and
nothing that is said of batches depends on them. -/
structure Wording where
  /-- The description of the arguments. -/
  help : String
  /-- The name and the version of the program. -/
  version : String
  /-- The report on arguments that make no sense. -/
  usage : List String → String

/-- The line that shows the form of a command line. -/
def usageLine : String :=
  "Usage: letcalc [OPTIONS] [CONTENTS]\n"

/-- The wording of the program.  Of arguments that make no sense only the exit code is settled; the
report on them shows the form of a command line and leaves open which argument is at fault. -/
def Wording.standard : Wording where
  help :=
    "Evaluator for fully parenthesised prefix arithmetic with let bindings\n\n" ++
    usageLine ++
    "\nArguments:\n" ++
    "  [CONTENTS]  An expression, or a path with `--file`. Reads stdin when omitted\n" ++
    "\nOptions:\n" ++
    "  -f, --file                   " ++
    "Tells letcalc to read expressions from a file, one per line\n" ++
    "  -t, --trace                  " ++
    "Print the tokens and the syntax tree of every expression to stderr\n" ++
    "      --max-depth <MAX_DEPTH>  How deeply parentheses may nest [default: 256]\n" ++
    "  -h, --help                   Print help\n" ++
    "  -V, --version                Print version\n"
  version := "letcalc 0.1.0\n"
  usage := fun _ => usageLine

/-- The output when no batch is run. -/
def Halt.output (wording : Wording) (arguments : List String) : Halt → Output
  | usage => ⟨"", wording.usage arguments, 2⟩
  | version => ⟨wording.version, "", 0⟩
  | help => ⟨wording.help, "", 0⟩

/-- The output of a batch.  `content` is what the file of a path holds, if it can be read, and
`input` is the standard input. -/
def Request.output (request : Request) (content : String → Option ByteArray) (input : ByteArray) :
    Output :=
  .ofReport <|
    match request.source with
    | .argument line => Batch.runLines request.options [line]
    | .file path => Batch.runFile request.options path (content path)
    | .standard => Batch.runStream request.options input

/-- The output of the program, whatever the wording it has for the command lines that ask for no
batch. -/
def output (arguments : List String) (content : String → Option ByteArray) (input : ByteArray)
    (wording : Wording := .standard) : Output :=
  match Request.ofArguments arguments with
  | .error halt => halt.output wording arguments
  | .ok request => request.output content input

end CommandLine
end PrefixCalc
