import PrefixCalc.Evaluate

/-!
# What a command line asks for

Arguments are read from left to right, and the first one that settles the matter wins: a request for
the version or for help is granted although a fault stands further right, and a fault is reported
although such a request stands further right.  Switches may be joined behind one `-`.  The value of
`--max-depth` is checked before the next argument is looked at.  Behind `--` nothing is an option,
and neither `-` alone nor the empty argument is one anywhere.
-/

namespace PrefixCalc
namespace CommandLine

/-- Why the reading of a command line ends early. -/
inductive Halt where
  /-- The arguments make no sense. -/
  | usage
  | version
  | help
  deriving DecidableEq, Repr

/-- An option without a value. -/
inductive Switch where
  | file
  | trace
  | version
  | help
  deriving DecidableEq, Repr

namespace Switch

/-- The switch with this letter. -/
def ofLetter? (letter : Char) : Option Switch :=
  match letter with
  | 'f' => some file
  | 't' => some trace
  | 'V' => some version
  | 'h' => some help
  | _ => none

/-- The switch with this name. -/
def ofName? (name : String) : Option Switch :=
  match name with
  | "file" => some file
  | "trace" => some trace
  | "version" => some version
  | "help" => some help
  | _ => none

end Switch

/-- The arguments read so far. -/
structure Settings where
  /-- Whether the operand names a file. -/
  file : Bool := false
  trace : Bool := false
  /-- The value of `--max-depth`, if it was given. -/
  maxDepth : Option Nat := none
  /-- The operand: an expression, or the name of a file. -/
  operand : Option String := none
  deriving DecidableEq, Repr

/-- The largest value of `--max-depth`. -/
def largestDepth : Nat := Nat.pow 2 64 - 1

/-- The value of an option argument: decimal digits, perhaps behind a `+`. -/
def depthOf? (argument : String) : Option Nat :=
  let digits := match argument.toList with
    | '+' :: rest => rest
    | text => text
  if digits.isEmpty || !digits.all Char.isDigit then none
  else
    let value := Nat.ofDigitChars 10 digits 0
    if value ≤ largestDepth then some value else none

/-- Whether an argument can not be the value of the option before it. -/
def looksLikeOption (argument : String) : Bool :=
  match argument.toList with
  | '-' :: _ :: _ => true
  | _ => false

namespace Settings

/-- The settings after a switch.  No switch may be given twice. -/
def turnOn (settings : Settings) : Switch → Except Halt Settings
  | .file => if settings.file then .error .usage else .ok { settings with file := true }
  | .trace => if settings.trace then .error .usage else .ok { settings with trace := true }
  | .version => .error .version
  | .help => .error .help

/-- The settings after a value for `--max-depth`, which may be given only once. -/
def withMaxDepth (settings : Settings) (argument : String) : Except Halt Settings :=
  match depthOf? argument, settings.maxDepth with
  | some depth, none => .ok { settings with maxDepth := some depth }
  | _, _ => .error .usage

/-- The settings after an operand, of which there may be only one. -/
def withOperand (settings : Settings) (argument : String) : Except Halt Settings :=
  match settings.operand with
  | none => .ok { settings with operand := some argument }
  | some _ => .error .usage

/-- The settings after the letters of joined switches. -/
def withLetters (settings : Settings) (letters : List Char) : Except Halt Settings :=
  letters.foldlM
    (fun current letter =>
      match Switch.ofLetter? letter with
      | some switch => current.turnOn switch
      | none => .error .usage)
    settings

/-- The settings after an option that is written out and does not take the argument behind it:
`text` is what follows the two dashes. -/
def withLong (settings : Settings) (text : List Char) : Except Halt Settings :=
  let name := String.ofList (text.takeWhile (· != '='))
  match text.dropWhile (· != '=') with
  | [] =>
    match Switch.ofName? name with
    | some switch => settings.turnOn switch
    | none => .error .usage
  | _ :: value =>
    if name = "max-depth" then settings.withMaxDepth (String.ofList value) else .error .usage

/-- The settings after all arguments. -/
def read (settings : Settings) : List String → Except Halt Settings
  | [] => .ok settings
  | "--" :: operands => operands.foldlM withOperand settings
  | "--max-depth" :: [] => .error .usage
  | "--max-depth" :: value :: arguments =>
    if looksLikeOption value then .error .usage
    else
      match settings.withMaxDepth value with
      | .error halt => .error halt
      | .ok next => next.read arguments
  | argument :: arguments =>
    let outcome := match argument.toList with
      | '-' :: '-' :: text => settings.withLong text
      | '-' :: letter :: letters => settings.withLetters (letter :: letters)
      | _ => settings.withOperand argument
    match outcome with
    | .error halt => .error halt
    | .ok next => next.read arguments

end Settings

/-- Where the lines come from. -/
inductive Source where
  /-- One line, given as an argument. -/
  | argument (line : String)
  /-- The lines of a file. -/
  | file (path : String)
  /-- The lines of the standard input. -/
  | standard
  deriving DecidableEq, Repr

/-- A batch to be run. -/
structure Request where
  options : Options
  source : Source
  deriving DecidableEq, Repr

/-- The batch that the settings describe.  A switch for a file without a file name is idle. -/
def Settings.request (settings : Settings) : Request where
  options := { maxDepth := settings.maxDepth.getD defaultMaxDepth, trace := settings.trace }
  source :=
    match settings.operand with
    | none => .standard
    | some operand => if settings.file then .file operand else .argument operand

/-- The batch that the arguments ask for, or why there is none. -/
def Request.ofArguments (arguments : List String) : Except Halt Request :=
  (Settings.read {} arguments).map Settings.request

end CommandLine
end PrefixCalc
