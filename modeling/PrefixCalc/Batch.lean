import PrefixCalc.Evaluate
import PrefixCalc.Text.Lines

/-!
# Evaluating many lines

Every line that is not blank is a source text of its own.  A value goes to the standard output, a
trace and an error to the standard error, and the batch succeeds when every line does.  The two ways
to get at the lines differ on bytes that are not UTF-8: a file is refused as a whole, a stream is
read up to the first line that cannot be decoded and ends there without a report.
-/

namespace PrefixCalc

/-- What a batch has written, and whether it succeeded. -/
structure Report where
  stdout : String := ""
  stderr : String := ""
  ok : Bool := true
  deriving DecidableEq, Repr

namespace Report

/-- One report after another. -/
def append (first second : Report) : Report where
  stdout := first.stdout ++ second.stdout
  stderr := first.stderr ++ second.stderr
  ok := first.ok && second.ok

instance : Append Report :=
  ⟨append⟩

/-- The reports in a row as one. -/
def concat (reports : List Report) : Report :=
  reports.foldr (· ++ ·) {}

@[simp]
theorem concat_nil : concat [] = {} :=
  rfl

@[simp]
theorem concat_cons (report : Report) (reports : List Report) :
    concat (report :: reports) = report ++ concat reports :=
  rfl

/-- Reports in a row succeed exactly when each of them does. -/
theorem ok_concat_iff (reports : List Report) :
    (concat reports).ok = true ↔ ∀ report ∈ reports, report.ok = true := by
  induction reports with
  | nil => simp
  | cons report reports ih =>
    rw [concat_cons, List.forall_mem_cons, ← ih]
    exact Bool.and_eq_true_iff

end Report

namespace Batch

/-- The text with a newline behind it. -/
def terminated (line : String) : String :=
  line ++ "\n"

/-- The lines as one text, each with a newline behind it. -/
def unlines (lines : List String) : String :=
  String.join (lines.map terminated)

/-- Whether a line holds blanks alone. -/
def isBlankLine (line : String) : Bool :=
  line.toList.all Text.isBlank

/-- The report on one line. -/
def runLine (options : Options) (line : String) : Report :=
  if isBlankLine line then {}
  else
    let outcome := evaluateWith options line
    match outcome.result with
    | .ok value =>
      { stdout := terminated (Numeral.ofWord value), stderr := unlines outcome.trace }
    | .error error =>
      { stderr := unlines outcome.trace ++ terminated error.message, ok := false }

/-- The report on a list of lines. -/
def runLines (options : Options) (lines : List String) : Report :=
  Report.concat (lines.map (runLine options))

/-- The lines of a decoded text. -/
def textLines (text : String) : List String :=
  (Text.lines '\n' '\r' text.toList).map String.ofList

/-- The lines of a stream of bytes, up to the first that is not UTF-8. -/
def decodedLines : List (List UInt8) → List String
  | [] => []
  | line :: rest =>
    match String.fromUTF8? line.toByteArray with
    | some text => text :: decodedLines rest
    | none => []

/-- The report on a stream of bytes. -/
def runStream (options : Options) (bytes : ByteArray) : Report :=
  runLines options (decodedLines (Text.lines 10 13 bytes.toList))

/-- The report on a file that cannot be read as text. -/
def unreadable (path : String) : Report where
  stderr := terminated
    ("Failed to read the input file '" ++ path ++ "'. Perhaps this file does not exist?")
  ok := false

/-- The report on a file with the given content, `none` when there is no content to be had. -/
def runFile (options : Options) (path : String) (content : Option ByteArray) : Report :=
  match content.bind String.fromUTF8? with
  | some text => runLines options (textLines text)
  | none => unreadable path

end Batch
end PrefixCalc
