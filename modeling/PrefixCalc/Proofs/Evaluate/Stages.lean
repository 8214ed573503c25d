import PrefixCalc.Evaluate

/-!
# The stages of an evaluation

What the evaluation of a source text gives, once it is known what its tokens are and how they parse.
-/

namespace PrefixCalc

variable {source : String} {tokens : List Token}

/-- What becomes of the outcome of parsing. -/
def conclude : Except ParseError Expr → Except Error Int32
  | .error error => .error (.parse error)
  | .ok e => e.value.mapError .eval

theorem evaluate_of_tokenize_error {error : LexicalError} (limit : Nat)
    (h : Token.tokenize source = .error error) :
    evaluate limit source = .error (.lexical error) := by
  rw [evaluate, evaluateWith, h]

theorem evaluate_of_tokenize (limit : Nat) (h : Token.tokenize source = .ok tokens) :
    evaluate limit source = conclude (parse limit tokens) := by
  rw [evaluate, evaluateWith, h]
  simp only
  cases parse limit tokens <;> rfl

/-- An error of parsing that is reported comes from parsing. -/
theorem conclude_eq_parse_error_iff {parsed : Except ParseError Expr} {error : ParseError} :
    conclude parsed = .error (.parse error) ↔ parsed = .error error := by
  cases parsed with
  | error other => simp [conclude]
  | ok e =>
    have hOther : conclude (.ok e) ≠ .error (.parse error) := by
      show e.value.mapError Error.eval ≠ .error (.parse error)
      cases e.value with
      | error fault => exact fun h => absurd (Except.error.inj h) (by simp)
      | ok value => exact fun h => nomatch h
    simp [hOther]

end PrefixCalc
