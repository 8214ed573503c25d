import PrefixCalc.CommandLine.Output
import PrefixCalc.Proofs.Batch.Lines

/-!
# Standard input and files

The lines of a batch reach the program in two ways that do not look alike.  A file is decoded as a
whole and split as characters; the standard input is split as bytes and each line is decoded by
itself.  Where the bytes are those of a text, both come to the same lines and so to the same output
(`output_standard_eq_file`).  Where they are not, the file is refused, and the standard input is
read up to the first line that cannot be decoded.
-/

namespace PrefixCalc
namespace CommandLine

variable {arguments : List String} {options : Options} {path : String} {wording : Wording}

/-! ## The output of a batch -/

theorem exitCode_ofReport_eq_zero_iff {report : Report} :
    (Output.ofReport report).exitCode = 0 ↔ report.ok = true := by
  rw [Output.ofReport]
  cases report.ok <;> simp

theorem ofReport_unreadable (path : String) :
    Output.ofReport (Batch.unreadable path) =
      ⟨"", "Failed to read the input file '" ++ path ++
        "'. Perhaps this file does not exist?\n", 1⟩ := by
  rw [Output.ofReport, Batch.unreadable, Batch.terminated, String.append_assoc]
  rfl

/-- What the output of a run over some lines is, line by line. -/
structure Answers (options : Options) (lines : List String) (out : Output) : Prop where
  /-- The standard output shows the values of the lines that have one, in the order of the lines. -/
  values : out.stdout = Batch.unlines ((lines.filterMap (Batch.value? options)).map Numeral.ofWord)
  /-- The exit code tells whether every line that is not blank has a value. -/
  exitCode : out.exitCode = 0 ↔ ∀ line ∈ lines, Batch.isBlankLine line = false →
    ∃ value, (evaluateWith options line).result = .ok value
  /-- A line adds to the standard output what it shows when it is alone. -/
  stdout : out.stdout = String.join (lines.map fun line => (Batch.runLine options line).stdout)
  /-- A line adds to the standard error what it shows when it is alone. -/
  stderr : out.stderr = String.join (lines.map fun line => (Batch.runLine options line).stderr)
  /-- A blank line is skipped, and it has no tokens. -/
  blank : ∀ line ∈ lines, Batch.isBlankLine line = true →
    Batch.runLine options line = {} ∧ Token.tokenize line = .ok []
  /-- A line that is not skipped and fails shows its trace and the message of its error, which is
  not the error for want of tokens. -/
  failing : ∀ line ∈ lines, Batch.isBlankLine line = false →
    ∀ error, (evaluateWith options line).result = .error error →
      error ≠ .parse .empty ∧
        (Batch.runLine options line).stderr =
          Batch.unlines (evaluateWith options line).trace ++ Batch.terminated error.message

theorem answers_runLines (options : Options) (lines : List String) :
    Answers options lines (.ofReport (Batch.runLines options lines)) where
  values := Batch.stdout_runLines options lines
  exitCode := exitCode_ofReport_eq_zero_iff.trans Batch.ok_runLines_iff
  stdout := by
    rw [Output.ofReport, Batch.runLines, Report.stdout_concat, List.map_map]
    rfl
  stderr := by
    rw [Output.ofReport, Batch.runLines, Report.stderr_concat, List.map_map]
    rfl
  blank := by
    intro line _ hBlank
    exact ⟨by rw [Batch.runLine, if_pos hBlank], Batch.tokenize_of_isBlankLine hBlank⟩
  failing := by
    intro line _ hBlank error hError
    refine ⟨?_, Batch.stderr_runLine_of_error hBlank hError⟩
    rintro rfl
    exact Batch.result_ne_empty options hBlank hError

/-! ## The two sources -/

theorem output_standard (content : String → Option ByteArray) (input : ByteArray)
    (h : Request.ofArguments arguments = .ok ⟨options, .standard⟩) :
    output arguments content input wording = .ofReport (Batch.runStream options input) := by
  rw [output, h]
  rfl

theorem output_file (content : String → Option ByteArray) (input : ByteArray)
    (h : Request.ofArguments arguments = .ok ⟨options, .file path⟩) :
    output arguments content input wording =
      .ofReport (Batch.runFile options path (content path)) := by
  rw [output, h]
  rfl

/-- For a limit and a choice of trace, and bytes that stand on the standard input of one run and in
the file of another: when the bytes are those of a text, both runs write the same and end with the
same exit code, which is told by the lines of the text one at a time.  When they are not, the run
over the file says that it cannot read it and nothing else, and the run over the standard input is
one over the lines before the first line that cannot be decoded. -/
theorem output_standard_eq_file {standardArguments fileArguments : List String}
    {options : Options} {path : String} {bytes : ByteArray}
    (standardContent fileContent : String → Option ByteArray) (fileInput : ByteArray)
    (wording : Wording)
    (hStandard : Request.ofArguments standardArguments = .ok ⟨options, .standard⟩)
    (hFile : Request.ofArguments fileArguments = .ok ⟨options, .file path⟩)
    (hContent : fileContent path = some bytes) :
    (∀ text, String.fromUTF8? bytes = some text →
      output standardArguments standardContent bytes wording =
        output fileArguments fileContent fileInput wording ∧
      Answers options (Batch.textLines text)
        (output standardArguments standardContent bytes wording)) ∧
    (String.fromUTF8? bytes = none →
      output fileArguments fileContent fileInput wording =
        ⟨"", "Failed to read the input file '" ++ path ++
          "'. Perhaps this file does not exist?\n", 1⟩ ∧
      ∃ before bad after,
        Text.lines 10 13 bytes.toList =
          before.map (fun line => line.toUTF8.toList) ++ bad :: after ∧
        String.fromUTF8? bad.toByteArray = none ∧
        output standardArguments standardContent bytes wording =
          .ofReport (Batch.runLines options before) ∧
        Answers options before (output standardArguments standardContent bytes wording)) := by
  rw [output_standard standardContent bytes hStandard,
    output_file fileContent fileInput hFile, hContent]
  refine ⟨fun text hText => ?text, fun hNone => ⟨?refused, ?lines⟩⟩
  case text =>
    rw [Batch.runStream_of_text hText, Batch.runFile_of_text hText]
    exact ⟨rfl, answers_runLines options _⟩
  case refused => rw [Batch.runFile_of_undecodable hNone, ofReport_unreadable]
  case lines =>
    obtain ⟨before, bad, after, hLines, hBad, hBefore⟩ := Batch.exists_undecodable_line hNone
    rw [Batch.runStream, hBefore]
    exact ⟨before, bad, after, hLines, hBad, rfl, answers_runLines options before⟩

/-- A sum before a return and a newline, a no-break space before a newline, and a letter of two
bytes at the end come to three lines on either way, of which the first has a value and the last an
error.  With a byte behind the letter that no character begins with, the file is refused. -/
theorem output_three_lines :
    let text := "add(1, 2)\r\n\u00a0\né"
    let onInput := ["--trace", "--max-depth=2"]
    let inFile := ["-ft", "--max-depth", "2", "in.calc"]
    let written := output onInput (fun _ => none) text.toUTF8
    Request.ofArguments onInput = .ok ⟨⟨2, true⟩, .standard⟩ ∧
    Request.ofArguments inFile = .ok ⟨⟨2, true⟩, .file "in.calc"⟩ ∧
    written = output inFile (fun _ => some text.toUTF8) .empty ∧
    Answers ⟨2, true⟩ ["add(1, 2)", "\u00a0", "é"] written ∧
    written.stdout = "3\n" ∧
    written.stderr =
      "tokens: add ( 1 , 2 )\ntree:   add(1, 2)\nInvalid identifier 'é' at position 0.\n" ∧
    written.exitCode = 1 ∧
    output inFile (fun _ => some (text.toUTF8.push 0xFF)) .empty =
      ⟨"", "Failed to read the input file 'in.calc'. Perhaps this file does not exist?\n", 1⟩ := by
  intro text onInput inFile written
  have hStandard : Request.ofArguments onInput = .ok ⟨⟨2, true⟩, .standard⟩ := by decide
  have hFile : Request.ofArguments inFile = .ok ⟨⟨2, true⟩, .file "in.calc"⟩ := by decide
  have hText : String.fromUTF8? text.toUTF8 = some text := by decide
  have hLines : Batch.textLines text = ["add(1, 2)", "\u00a0", "é"] := by decide
  obtain ⟨hSame, hAnswers⟩ := (output_standard_eq_file (fun _ => none)
    (fun _ => some text.toUTF8) .empty .standard hStandard hFile rfl).1 text hText
  obtain ⟨hRefused, -⟩ := (output_standard_eq_file (fun _ => none)
    (fun _ => some (text.toUTF8.push 0xFF)) .empty .standard hStandard hFile rfl).2 (by decide)
  rw [hLines] at hAnswers
  have hTokens : Token.tokenize "add(1, 2)" =
      .ok [.keyword (.op .add), .opening, .number 1, .comma, .number 2, .closing] := by cbv
  have hSum : parse 2 [.keyword (.op .add), .opening, .number 1, .comma, .number 2, .closing] =
      .ok (.op .add (.number 1) (.number 2)) := by decide
  have hLetter : Token.tokenize "é" = .error (.invalidIdentifier "é" 0) := by
    have hChars : "é".toList = ['é'] := by decide
    have hRead : Token.read 0 'é' [] = .error (.invalidIdentifier "é" 0) := by decide
    rw [Token.tokenize, hChars, Token.readAll_cons_of_not_isBlank 0 [] (by decide), hRead]
  have hWritten : written =
      ⟨"3\n", "tokens: add ( 1 , 2 )\ntree:   add(1, 2)\nInvalid identifier 'é' at position 0.\n",
        1⟩ := by
    show output onInput _ text.toUTF8 = _
    rw [output_standard _ _ hStandard, Batch.runStream_of_text hText, hLines]
    simp only [Batch.runLines, List.map_cons, List.map_nil, Batch.runLine, evaluateWith, hTokens,
      hSum, hLetter]
    decide
  exact ⟨hStandard, hFile, hSame, hAnswers, by rw [hWritten], by rw [hWritten], by rw [hWritten],
    hRefused⟩

end CommandLine
end PrefixCalc
