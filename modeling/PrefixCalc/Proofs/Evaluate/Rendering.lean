import PrefixCalc.Proofs.Expr.Reading
import PrefixCalc.Proofs.Sketch.Names

/-!
# Reading what has been built

The builder accepts much that is no written form: open groups, surplus operands, words in odd
places.  Whatever it accepts, the expression it builds can be shown and read again under the same
limit, because its names come from the source text and its depth is within the limit.  What may keep
the second reading from giving the expression back is the operand check and that a lone leaf is not
read.

Main statement: `parse_tokens_of_build`.
-/

namespace PrefixCalc

variable {source : String} {limit : Nat} {tokens : List Token} {e : Expr}

/-- The names of what is built from a source text are readable. -/
theorem readable_of_build (hTokens : Token.tokenize source = .ok tokens)
    (hBuild : Sketch.build limit tokens = .ok e) : ∀ name ∈ e.names, Token.Readable name := by
  obtain ⟨hLegible, -, -⟩ := Token.readAll_eq_ok_iff.1 hTokens
  obtain ⟨hNames, -⟩ := Sketch.names_and_depth_of_build hBuild
  intro name hMem
  exact Token.forall_legible_iff.1 hLegible name (hNames name hMem)

/-- Under the limit of the first parse the second is not too deep. -/
theorem parse_tokens_of_build (hBuild : Sketch.build limit tokens = .ok e) :
    parse limit e.tokens =
      if e.hasLeafBinding then .error .tooManyOperands
      else if e.isLeaf then .error (.malformed Fault.valueless.details)
      else .ok e := by
  obtain ⟨-, hDepth⟩ := Sketch.names_and_depth_of_build hBuild
  rw [Expr.parse_tokens, if_neg (Nat.not_lt.2 hDepth)]

/-- Source texts that parse alike evaluate alike. -/
theorem evaluate_eq_of_parse_eq {other : String} {again : List Token}
    (hTokens : Token.tokenize source = .ok tokens) (hAgain : Token.tokenize other = .ok again)
    (hParse : parse limit again = parse limit tokens) :
    evaluate limit other = evaluate limit source := by
  rw [evaluate_of_tokenize limit hAgain, evaluate_of_tokenize limit hTokens, hParse]

/-- An expression that is built from the tokens of a source text, be it well formed or not, is shown
as a text that has tokens again.  Parsing these under the same limit gives the expression back,
unless they have too many operands or are a lone leaf; it is never too deep and never unbalanced.
So an expression that was parsed and can be parsed again evaluates as the source text does. -/
theorem exists_parse_render_of_build (hTokens : Token.tokenize source = .ok tokens)
    (hBuild : Sketch.build limit tokens = .ok e) :
    ∃ again, Token.tokenize e.render = .ok again ∧
      parse limit again =
        (if e.hasLeafBinding then .error .tooManyOperands
        else if e.isLeaf then .error (.malformed "operand has no value")
        else .ok e) ∧
      (∀ other, parse limit again ≠ .error (.tooDeep other)) ∧
      parse limit again ≠ .error .unbalanced ∧
      (parse limit tokens = .ok e → (∃ other, parse limit again = .ok other) →
        evaluate limit e.render = evaluate limit source) := by
  have hAgain : Token.tokenize e.render = .ok e.tokens :=
    Expr.tokenize_written_form (readable_of_build hTokens hBuild) e.spells_tokens
  have hParse := parse_tokens_of_build hBuild
  refine ⟨e.tokens, hAgain, hParse, ?_, ?_, ?_⟩
  · intro other
    rw [hParse]
    split_ifs <;> simp
  · rw [hParse]
    split_ifs <;> simp
  · rintro hFirst ⟨other, hOther⟩
    have hSame : e = other := by
      rw [hParse] at hOther
      split_ifs at hOther
      exact Except.ok.inj hOther
    exact evaluate_eq_of_parse_eq hTokens hAgain (by rw [hOther, hFirst, hSame])

/-- An open call with an operand too many is shown without it and with both its brackets. -/
theorem evaluate_render_of_open_call :
    let e := Expr.op .sub (.op .add (.number 1) (.number 2)) (.number 4)
    let source := "sub(add(1,2),4,9"
    let tokens := [Token.keyword (.op .sub), .opening, .keyword (.op .add), .opening, .number 1,
      .comma, .number 2, .closing, .comma, .number 4, .comma, .number 9]
    Token.tokenize source = .ok tokens ∧ Sketch.build 2 tokens = .ok e ∧
      parse 2 tokens = .ok e ∧ e.render = "sub(add(1, 2), 4)" ∧
      (∃ again, Token.tokenize e.render = .ok again ∧ parse 2 again = .ok e) ∧
      evaluate 2 e.render = evaluate 2 source := by
  intro e source tokens
  have hTokens : Token.tokenize source = .ok tokens := by cbv
  have hBuild : Sketch.build 2 tokens = .ok e := by decide
  have hFirst : parse 2 tokens = .ok e := by decide
  obtain ⟨again, hAgain, hParse, -, -, hSame⟩ := exists_parse_render_of_build hTokens hBuild
  have hSecond : parse 2 again = .ok e := hParse
  exact ⟨hTokens, hBuild, hFirst, by decide, ⟨again, hAgain, hSecond⟩, hSame hFirst ⟨e, hSecond⟩⟩

end PrefixCalc
