import PrefixCalc.Batch
import PrefixCalc.Proofs.Evaluate.Failure
import PrefixCalc.Proofs.Text.Encoding

/-!
# Line by line

What a batch writes is what its lines write, one behind the other, and a line is looked at by itself
alone.  The standard output holds the values of the lines that are not blank and have one
(`stdout_runLines`), and the lines that are skipped for being blank are those without a token, so no
line is reported as empty.

Bytes that are the bytes of a text have the lines of the text (`decodedLines_lines`).  Otherwise
some line cannot be decoded, and the lines before the first of these are all that is read
(`exists_undecodable_line`).
-/

namespace PrefixCalc
namespace Report

/-- A text that is empty at the start and grows with each report is the texts of the reports in a
row. -/
theorem text_concat {text : Report → String} (hEmpty : text {} = "")
    (hAppend : ∀ first second, text (append first second) = text first ++ text second)
    (reports : List Report) : text (concat reports) = String.join (reports.map text) := by
  induction reports with
  | nil => exact hEmpty
  | cons report reports ih =>
    rw [List.map_cons, String.join_cons, ← ih]
    exact hAppend report (concat reports)

theorem stdout_concat (reports : List Report) :
    (concat reports).stdout = String.join (reports.map stdout) :=
  text_concat rfl (fun _ _ => rfl) reports

theorem stderr_concat (reports : List Report) :
    (concat reports).stderr = String.join (reports.map stderr) :=
  text_concat rfl (fun _ _ => rfl) reports

end Report

namespace Batch

variable {options : Options} {line : String}

/-! ## The report on a line -/

/-- The value that a line shows, if it is not blank and has one. -/
def value? (options : Options) (line : String) : Option Int32 :=
  if isBlankLine line then none else (evaluateWith options line).result.toOption

theorem stdout_runLine (options : Options) (line : String) :
    (runLine options line).stdout = unlines ((value? options line).toList.map Numeral.ofWord) := by
  simp only [runLine, value?]
  cases isBlankLine line with
  | true => rfl
  | false =>
    cases (evaluateWith options line).result with
    | error error => rfl
    | ok value => simp [Except.toOption, unlines]

theorem stdout_runLines (options : Options) (lines : List String) :
    (runLines options lines).stdout =
      unlines ((lines.filterMap (value? options)).map Numeral.ofWord) := by
  rw [runLines, Report.stdout_concat]
  induction lines with
  | nil => rfl
  | cons line lines ih =>
    rw [List.map_cons, List.map_cons, String.join_cons, ih, stdout_runLine, List.filterMap_cons]
    cases value? options line <;> simp [unlines]

theorem ok_runLine_iff :
    (runLine options line).ok = true ↔
      (isBlankLine line = false → ∃ value, (evaluateWith options line).result = .ok value) := by
  simp only [runLine]
  cases isBlankLine line with
  | true => simp
  | false => cases (evaluateWith options line).result <;> simp

theorem ok_runLines_iff {lines : List String} :
    (runLines options lines).ok = true ↔
      ∀ line ∈ lines, isBlankLine line = false →
        ∃ value, (evaluateWith options line).result = .ok value := by
  rw [runLines, Report.ok_concat_iff, List.forall_mem_map]
  simp only [ok_runLine_iff]

/-- A line that is skipped has no tokens. -/
theorem tokenize_of_isBlankLine (h : isBlankLine line = true) : Token.tokenize line = .ok [] :=
  tokenize_eq_nil_iff.2 (List.all_eq_true.1 h)

/-- A line that is not skipped has tokens, so it is not reported as empty. -/
theorem result_ne_empty (options : Options) (h : isBlankLine line = false) :
    (evaluateWith options line).result ≠ .error (.parse .empty) := by
  rw [evaluateWith_result]
  intro hEmpty
  rw [isBlankLine, List.all_eq_true.2 (evaluate_eq_empty_iff.1 hEmpty)] at h
  exact nomatch h

theorem stderr_runLine_of_error {error : Error} (h : isBlankLine line = false)
    (hError : (evaluateWith options line).result = .error error) :
    (runLine options line).stderr =
      unlines (evaluateWith options line).trace ++ terminated error.message := by
  simp only [runLine, h, hError]
  rfl

/-! ## Lines of bytes -/

theorem decodedLines_cons_encode (text : List Char) (rest : List (List UInt8)) :
    decodedLines (Text.encode text :: rest) = String.ofList text :: decodedLines rest := by
  have hDecode : String.fromUTF8? (Text.encode text).toByteArray = some (String.ofList text) := by
    rw [Text.fromUTF8?_eq_some_iff, Text.toList_toByteArray, String.toList_ofList]
  rw [decodedLines, hDecode]

/-- Lines that can be decoded are read. -/
theorem decodedLines_append (texts : List (List Char)) (rest : List (List UInt8)) :
    decodedLines (texts.map Text.encode ++ rest) =
      texts.map String.ofList ++ decodedLines rest := by
  induction texts with
  | nil => rfl
  | cons text texts ih =>
    rw [List.map_cons, List.cons_append, decodedLines_cons_encode, ih, List.map_cons,
      List.cons_append]

/-- A line that cannot be decoded ends the reading. -/
theorem decodedLines_cons_of_none {bad : List UInt8} (after : List (List UInt8))
    (h : String.fromUTF8? bad.toByteArray = none) : decodedLines (bad :: after) = [] := by
  rw [decodedLines, h]

/-- The lines of a stream that holds the bytes of a text are the lines of the text. -/
theorem decodedLines_lines {bytes : ByteArray} {text : String}
    (h : String.fromUTF8? bytes = some text) :
    decodedLines (Text.lines 10 13 bytes.toList) = textLines text := by
  have hLines := decodedLines_append (Text.lines '\n' '\r' text.toList) []
  rw [List.append_nil, decodedLines, List.append_nil, ← Text.lines_encode] at hLines
  rw [Text.fromUTF8?_eq_some_iff.1 h, hLines, textLines]

/-- Lines that are not all decodable have a first that is not. -/
theorem exists_first_undecodable {lines : List (List UInt8)}
    (h : ¬ ∀ line ∈ lines, ∃ text, line = Text.encode text) :
    ∃ (before : List (List Char)) (bad : List UInt8) (after : List (List UInt8)),
      lines = before.map Text.encode ++ bad :: after ∧ ∀ text, bad ≠ Text.encode text := by
  induction lines with
  | nil => exact absurd (by simp) h
  | cons line lines ih =>
    by_cases hLine : ∃ text, line = Text.encode text
    · obtain ⟨text, rfl⟩ := hLine
      have hRest : ¬ ∀ line ∈ lines, ∃ text, line = Text.encode text :=
        fun hAll => h (List.forall_mem_cons.2 ⟨⟨text, rfl⟩, hAll⟩)
      obtain ⟨before, bad, after, rfl, hBad⟩ := ih hRest
      exact ⟨text :: before, bad, after, rfl, hBad⟩
    · exact ⟨[], line, lines, rfl, fun text hText => hLine ⟨text, hText⟩⟩

/-- A stream that is not the bytes of a text has a first line that cannot be decoded, and the lines
before it are those that are read. -/
theorem exists_undecodable_line {bytes : ByteArray} (h : String.fromUTF8? bytes = none) :
    ∃ before bad after,
      Text.lines 10 13 bytes.toList = before.map (fun line => line.toUTF8.toList) ++ bad :: after ∧
      String.fromUTF8? bad.toByteArray = none ∧
      decodedLines (Text.lines 10 13 bytes.toList) = before := by
  have hSome : ¬ ∀ line ∈ Text.lines 10 13 bytes.toList, ∃ text, line = Text.encode text := by
    intro hAll
    obtain ⟨text, hText⟩ := Text.exists_encode_of_forall_lines hAll
    exact Text.fromUTF8?_eq_none_iff.1 h text hText
  obtain ⟨before, bad, after, hLines, hBad⟩ := exists_first_undecodable hSome
  have hNone : String.fromUTF8? bad.toByteArray = none := by
    rw [Text.fromUTF8?_eq_none_iff, Text.toList_toByteArray]
    exact hBad
  have hBytes : ∀ text : List Char, (String.ofList text).toUTF8.toList = Text.encode text :=
    fun text => Text.toList_toByteArray (Text.encode text)
  refine ⟨before.map String.ofList, bad, after, ?_, hNone, ?_⟩
  · rw [hLines, List.map_map]
    congr 1
    exact List.map_congr_left fun text _ => (hBytes text).symm
  · rw [hLines, decodedLines_append, decodedLines_cons_of_none after hNone, List.append_nil]

/-! ## Files and streams -/

theorem runStream_of_text {bytes : ByteArray} {text : String}
    (h : String.fromUTF8? bytes = some text) :
    runStream options bytes = runLines options (textLines text) := by
  rw [runStream, decodedLines_lines h]

theorem runFile_of_text {path : String} {bytes : ByteArray} {text : String}
    (h : String.fromUTF8? bytes = some text) :
    runFile options path (some bytes) = runLines options (textLines text) := by
  rw [runFile, Option.bind_some, h]

theorem runFile_of_undecodable {path : String} {bytes : ByteArray}
    (h : String.fromUTF8? bytes = none) : runFile options path (some bytes) = unreadable path := by
  rw [runFile, Option.bind_some, h]

end Batch
end PrefixCalc
