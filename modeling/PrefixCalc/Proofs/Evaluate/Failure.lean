import PrefixCalc.Proofs.Evaluate.Stages
import PrefixCalc.Proofs.Sketch.Peak
import PrefixCalc.Proofs.Token.Reading
import PrefixCalc.Proofs.Token.Tally

/-!
# Which stage has failed

The error of an evaluation tells the stage it comes from, and with the same error the stage fails on
its own: `evaluate_eq_lexical_iff`, `evaluate_eq_parse_iff` and `evaluate_eq_eval_iff`.  The kind of
the error forgets the rest and keeps the stage, and so does the variant of an error of the text,
from which the kind is read (`stage_of_source?`).  A trace is as long as the stages that have been
passed, and what it shows of the tokens can be read again.

A text without tokens is not an error of reading but of parsing, and a text has no tokens exactly
when it is blank (`evaluate_eq_empty_iff`).
-/

namespace PrefixCalc

variable {limit : Nat} {source : String} {tokens : List Token}

/-! ## One stage at a time -/

theorem evaluate_eq_lexical_iff {error : LexicalError} :
    evaluate limit source = .error (.lexical error) ↔ Token.tokenize source = .error error := by
  cases hTokens : Token.tokenize source with
  | error other => simp [evaluate_of_tokenize_error limit hTokens]
  | ok tokens =>
    rw [evaluate_of_tokenize limit hTokens]
    cases parse limit tokens with
    | error other => simp [conclude]
    | ok e => cases hValue : e.value <;> simp [conclude, hValue, Except.mapError]

theorem evaluate_eq_parse_iff {error : ParseError} :
    evaluate limit source = .error (.parse error) ↔
      ∃ tokens, Token.tokenize source = .ok tokens ∧ parse limit tokens = .error error := by
  cases hTokens : Token.tokenize source with
  | error other => simp [evaluate_of_tokenize_error limit hTokens]
  | ok tokens => simp [evaluate_of_tokenize limit hTokens, conclude_eq_parse_error_iff]

theorem evaluate_eq_eval_iff {error : EvalError} :
    evaluate limit source = .error (.eval error) ↔
      ∃ tokens e, Token.tokenize source = .ok tokens ∧ parse limit tokens = .ok e ∧
        (e.eval .empty).1 = .error error := by
  cases hTokens : Token.tokenize source with
  | error other => simp [evaluate_of_tokenize_error limit hTokens]
  | ok tokens =>
    rw [evaluate_of_tokenize limit hTokens]
    cases hParse : parse limit tokens with
    | error other => simp [conclude, hParse]
    | ok e =>
      simp only [Except.ok.injEq, exists_and_left, exists_eq_left', hParse, conclude, Expr.value]
      cases (e.eval .empty).1 <;> simp [Except.mapError]

/-! ## The text without tokens -/

/-- Only blanks have no tokens. -/
theorem tokenize_eq_nil_iff : Token.tokenize source = .ok [] ↔ Text.IsGap source.toList := by
  rw [Token.tokenize, Token.readAll_eq_ok_iff]
  constructor
  · rintro ⟨-, -, hSpells⟩
    cases hSpells with
    | nil hGap => exact hGap
  · exact fun hGap => ⟨by simp, List.isChain_nil, .nil hGap⟩

/-- Only from no tokens nothing can be parsed for want of tokens. -/
theorem parse_eq_empty_iff : parse limit tokens = .error .empty ↔ tokens = [] := by
  constructor
  · intro h
    cases tokens with
    | nil => rfl
    | cons first tokens =>
      exfalso
      rw [parse] at h
      rcases Token.checkOperandCounts_cases (first :: tokens) with hCounts | hCounts
      · simp only [hCounts] at h
        exact Sketch.build_ne_empty limit first tokens h
      · simp [hCounts] at h
  · rintro rfl
    rfl

/-- Exactly the blank texts fail for want of tokens. -/
theorem evaluate_eq_empty_iff :
    evaluate limit source = .error (.parse .empty) ↔
      ∀ c ∈ source.toList, Text.isBlank c = true := by
  rw [evaluate_eq_parse_iff]
  simp only [parse_eq_empty_iff, exists_eq_right]
  exact tokenize_eq_nil_iff

/-! ## Kinds -/

/-- The evaluation has ended with an error of the given kind. -/
def FailsWith (kind : ErrorKind) (outcome : Except Error Int32) : Prop :=
  ∃ error, outcome = .error error ∧ error.kind = kind

theorem failsWith_lexical_iff :
    FailsWith .lexical (evaluate limit source) ↔ ∃ error, Token.tokenize source = .error error := by
  constructor
  · rintro ⟨_ | _ | ⟨_ | _⟩, hOutcome, hKind⟩
    · exact ⟨_, evaluate_eq_lexical_iff.1 hOutcome⟩
    all_goals exact absurd hKind (by simp)
  · rintro ⟨error, hTokens⟩
    exact ⟨_, evaluate_eq_lexical_iff.2 hTokens, Error.kind_lexical error⟩

theorem failsWith_syntactic_iff :
    FailsWith .syntactic (evaluate limit source) ↔
      ∃ tokens error, Token.tokenize source = .ok tokens ∧ parse limit tokens = .error error := by
  constructor
  · rintro ⟨_ | error | ⟨_ | _⟩, hOutcome, hKind⟩
    case parse =>
      obtain ⟨tokens, hTokens, hParse⟩ := evaluate_eq_parse_iff.1 hOutcome
      exact ⟨tokens, error, hTokens, hParse⟩
    all_goals exact absurd hKind (by simp)
  · rintro ⟨tokens, error, hTokens, hParse⟩
    exact ⟨_, evaluate_eq_parse_iff.2 ⟨tokens, hTokens, hParse⟩, Error.kind_parse error⟩

theorem failsWith_binding_iff :
    FailsWith .binding (evaluate limit source) ↔
      ∃ tokens e name, Token.tokenize source = .ok tokens ∧ parse limit tokens = .ok e ∧
        (e.eval .empty).1 = .error (.unbound name) := by
  constructor
  · rintro ⟨_ | _ | ⟨name | _⟩, hOutcome, hKind⟩
    case eval.unbound =>
      obtain ⟨tokens, e, h⟩ := evaluate_eq_eval_iff.1 hOutcome
      exact ⟨tokens, e, name, h⟩
    all_goals exact absurd hKind (by simp)
  · rintro ⟨tokens, e, name, h⟩
    exact ⟨_, evaluate_eq_eval_iff.2 ⟨tokens, e, h⟩, rfl⟩

theorem failsWith_arithmetic_iff :
    FailsWith .arithmetic (evaluate limit source) ↔
      ∃ tokens e, Token.tokenize source = .ok tokens ∧ parse limit tokens = .ok e ∧
        (e.eval .empty).1 = .error .divisionByZero := by
  constructor
  · rintro ⟨_ | _ | ⟨_ | _⟩, hOutcome, hKind⟩
    case eval.divisionByZero => exact evaluate_eq_eval_iff.1 hOutcome
    all_goals exact absurd hKind (by simp)
  · exact fun h => ⟨_, evaluate_eq_eval_iff.2 h, rfl⟩

/-- An error of the text comes from the stage that its variant belongs to. -/
theorem stage_of_source? {error : Error} {reason : SourceError}
    (hError : evaluate limit source = .error error) (hReason : error.source? = some reason) :
    if reason.isLexical then ∃ lexical, Token.tokenize source = .error lexical ∧
      lexical.toSourceError = reason
    else ∃ tokens malformed, Token.tokenize source = .ok tokens ∧
      parse limit tokens = .error malformed ∧ malformed.toSourceError = reason := by
  rcases error with lexical | malformed | _
  case lexical =>
    obtain rfl : lexical.toSourceError = reason := Option.some.inj hReason
    rw [if_pos lexical.isLexical_toSourceError]
    exact ⟨lexical, evaluate_eq_lexical_iff.1 hError, rfl⟩
  case parse =>
    obtain rfl : malformed.toSourceError = reason := Option.some.inj hReason
    obtain ⟨tokens, hTokens, hParse⟩ := evaluate_eq_parse_iff.1 hError
    rw [if_neg (by simp)]
    exact ⟨tokens, malformed, hTokens, hParse, rfl⟩
  case eval => exact nomatch hReason

/-! ## Traces -/

/-- Showing the stages changes nothing about the result. -/
theorem evaluateWith_result (options : Options) (source : String) :
    (evaluateWith options source).result = evaluate options.maxDepth source := by
  rw [evaluate, evaluateWith, evaluateWith]
  cases Token.tokenize source with
  | error error => rfl
  | ok tokens =>
    simp only
    cases parse options.maxDepth tokens <;> rfl

theorem trace_of_tokenize_error {error : LexicalError} (options : Options)
    (hTokens : Token.tokenize source = .error error) :
    (evaluateWith options source).trace = [] := by
  rw [evaluateWith, hTokens]

theorem trace_of_parse_error {error : ParseError} (hTokens : Token.tokenize source = .ok tokens)
    (hParse : parse limit tokens = .error error) :
    (evaluateWith ⟨limit, true⟩ source).trace = ["tokens: " ++ Token.render tokens] := by
  simp only [evaluateWith, hTokens, hParse]
  rfl

theorem trace_of_parse_ok {e : Expr} (hTokens : Token.tokenize source = .ok tokens)
    (hParse : parse limit tokens = .ok e) :
    (evaluateWith ⟨limit, true⟩ source).trace =
      ["tokens: " ++ Token.render tokens, "tree:   " ++ e.render] := by
  simp only [evaluateWith, hTokens, hParse]
  rfl

/-- The kind of an error tells the stage that has failed: reading tokens, parsing, or working the
expression out, where an unbound name and a division by zero are told apart.  An error of the text
comes from the stage that its variant belongs to.  Blank texts, and no others, are reported as
empty.  Showing the stages does not change the result; the lines that are
shown are those of the stages passed, and the tokens in them can be read again. -/
theorem failsWith_stage (limit : Nat) (source : String) :
    (FailsWith .lexical (evaluate limit source) ↔
      ∃ error, Token.tokenize source = .error error) ∧
    (FailsWith .syntactic (evaluate limit source) ↔
      ∃ tokens error, Token.tokenize source = .ok tokens ∧ parse limit tokens = .error error) ∧
    (FailsWith .binding (evaluate limit source) ↔
      ∃ tokens e name, Token.tokenize source = .ok tokens ∧ parse limit tokens = .ok e ∧
        (e.eval .empty).1 = .error (.unbound name)) ∧
    (FailsWith .arithmetic (evaluate limit source) ↔
      ∃ tokens e, Token.tokenize source = .ok tokens ∧ parse limit tokens = .ok e ∧
        (e.eval .empty).1 = .error .divisionByZero) ∧
    (∀ error reason, evaluate limit source = .error error → error.source? = some reason →
      if reason.isLexical then ∃ lexical, Token.tokenize source = .error lexical ∧
        lexical.toSourceError = reason
      else ∃ tokens malformed, Token.tokenize source = .ok tokens ∧
        parse limit tokens = .error malformed ∧ malformed.toSourceError = reason) ∧
    (evaluate limit source = .error (.parse .empty) ↔
      ∀ c ∈ source.toList, Text.isBlank c = true) ∧
    (∀ trace, (evaluateWith ⟨limit, trace⟩ source).result = evaluate limit source) ∧
    (FailsWith .lexical (evaluate limit source) →
      (evaluateWith ⟨limit, true⟩ source).trace = []) ∧
    (FailsWith .syntactic (evaluate limit source) →
      ∃ tokens, Token.tokenize source = .ok tokens ∧
        (evaluateWith ⟨limit, true⟩ source).trace = ["tokens: " ++ Token.render tokens]) ∧
    (¬ FailsWith .lexical (evaluate limit source) →
      ¬ FailsWith .syntactic (evaluate limit source) →
      ∃ tokens e, Token.tokenize source = .ok tokens ∧ parse limit tokens = .ok e ∧
        (evaluateWith ⟨limit, true⟩ source).trace =
          ["tokens: " ++ Token.render tokens, "tree:   " ++ e.render]) ∧
    ∀ tokens, Token.tokenize source = .ok tokens →
      Token.tokenize (Token.render tokens) = .ok tokens := by
  refine ⟨failsWith_lexical_iff, failsWith_syntactic_iff, failsWith_binding_iff,
    failsWith_arithmetic_iff, fun _ _ => stage_of_source?, evaluate_eq_empty_iff,
    fun trace => evaluateWith_result _ source, ?lexical, ?syntactic, ?passed, ?again⟩
  case lexical =>
    intro h
    obtain ⟨error, hTokens⟩ := failsWith_lexical_iff.1 h
    exact trace_of_tokenize_error _ hTokens
  case syntactic =>
    intro h
    obtain ⟨tokens, error, hTokens, hParse⟩ := failsWith_syntactic_iff.1 h
    exact ⟨tokens, hTokens, trace_of_parse_error hTokens hParse⟩
  case passed =>
    intro hLexical hSyntactic
    cases hTokens : Token.tokenize source with
    | error error => exact absurd (failsWith_lexical_iff.2 ⟨error, hTokens⟩) hLexical
    | ok tokens =>
      cases hParse : parse limit tokens with
      | error error =>
        exact absurd (failsWith_syntactic_iff.2 ⟨tokens, error, hTokens, hParse⟩) hSyntactic
      | ok e => exact ⟨tokens, e, rfl, hParse, trace_of_parse_ok hTokens hParse⟩
  case again => exact fun tokens h => Token.tokenize_of_spells h (Token.spells_render tokens)

/-- A blank inside a name, an operand left out, and a name that is not bound: nothing, the tokens,
and the tokens and the tree are shown. -/
theorem trace_of_three_failures :
    FailsWith .lexical (evaluate 1 "add(1, b c)") ∧
    (evaluateWith ⟨1, true⟩ "add(1, b c)").trace = [] ∧
    FailsWith .syntactic (evaluate 1 "add(1, , 2)") ∧
    (∃ tokens, Token.tokenize "add(1, , 2)" = .ok tokens ∧
      (evaluateWith ⟨1, true⟩ "add(1, , 2)").trace = ["tokens: " ++ Token.render tokens]) ∧
    (evaluateWith ⟨1, true⟩ "add(1, , 2)").trace = ["tokens: add ( 1 , , 2 )"] ∧
    FailsWith .binding (evaluate 1 "div(1, x)") ∧
    (∃ tokens e, Token.tokenize "div(1, x)" = .ok tokens ∧ parse 1 tokens = .ok e ∧
      (evaluateWith ⟨1, true⟩ "div(1, x)").trace =
        ["tokens: " ++ Token.render tokens, "tree:   " ++ e.render]) ∧
    (evaluateWith ⟨1, true⟩ "div(1, x)").trace =
      ["tokens: div ( 1 , x )", "tree:   div(1, x)"] := by
  have hName : Token.tokenize "add(1, b c)" = .error (.invalidIdentifier "b c" 7) := by cbv
  have hCommas : Token.tokenize "add(1, , 2)" =
      .ok [.keyword (.op .add), .opening, .number 1, .comma, .comma, .number 2, .closing] := by
    cbv
  have hCall : Token.tokenize "div(1, x)" =
      .ok [.keyword (.op .div), .opening, .number 1, .comma, .var "x", .closing] := by cbv
  have hParse : parse 1 [.keyword (.op .div), .opening, .number 1, .comma, .var "x", .closing] =
      .ok (.op .div (.number 1) (.var "x")) := by decide
  have hUnbound : evaluate 1 "div(1, x)" = .error (.eval (.unbound "x")) :=
    evaluate_eq_eval_iff.2 ⟨_, _, hCall, hParse, by decide⟩
  have hLexical : FailsWith .lexical (evaluate 1 "add(1, b c)") :=
    failsWith_lexical_iff.2 ⟨_, hName⟩
  have hSyntactic : FailsWith .syntactic (evaluate 1 "add(1, , 2)") :=
    failsWith_syntactic_iff.2 ⟨_, .malformed "operand has no value", hCommas, by decide⟩
  have hPassed : ∀ kind, kind ≠ .binding → ¬ FailsWith kind (evaluate 1 "div(1, x)") := by
    rintro kind hKind ⟨error, hError, rfl⟩
    rw [hUnbound] at hError
    cases hError
    exact hKind rfl
  obtain ⟨-, -, -, -, -, -, -, hNothing, -⟩ := failsWith_stage 1 "add(1, b c)"
  obtain ⟨-, -, -, -, -, -, -, -, hShown, -⟩ := failsWith_stage 1 "add(1, , 2)"
  obtain ⟨-, -, -, -, -, -, -, -, -, hTree, -⟩ := failsWith_stage 1 "div(1, x)"
  obtain ⟨shown, hShownTokens, hShownTrace⟩ := hShown hSyntactic
  obtain ⟨tokens, e, hTokens, hExpr, hTrace⟩ :=
    hTree (hPassed .lexical (by decide)) (hPassed .syntactic (by decide))
  refine ⟨hLexical, hNothing hLexical, hSyntactic, ⟨shown, hShownTokens, hShownTrace⟩, ?commas,
    ⟨_, hUnbound, rfl⟩, ⟨tokens, e, hTokens, hExpr, hTrace⟩, ?call⟩
  case commas =>
    obtain rfl := Except.ok.inj (hCommas.symm.trans hShownTokens)
    exact hShownTrace.trans (by decide)
  case call =>
    obtain rfl := Except.ok.inj (hCall.symm.trans hTokens)
    obtain rfl := Except.ok.inj (hParse.symm.trans hExpr)
    exact hTrace.trans (by decide)

end PrefixCalc
