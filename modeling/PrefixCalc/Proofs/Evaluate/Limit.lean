import PrefixCalc.Proofs.Evaluate.Stages
import PrefixCalc.Proofs.Sketch.Peak
import PrefixCalc.Proofs.Token.Reading
import PrefixCalc.Proofs.Token.Tally

/-!
# What the nesting limit can do

For each source text there is one number, the peak of its open groups, that parts the limits in two:
below it the text is rejected for its depth and for nothing else, from it on the limit makes no
difference.  The peak is counted behind the first token, and it is zero for a text that is rejected
before any group is opened.

Main statement: `exists_evaluate_threshold`.
-/

namespace PrefixCalc
namespace Token

/-- A written form shows the opening bracket of every group. -/
theorem Spells.count_opening_le {tokens : List Token} {text : List Char} (h : Spells tokens text) :
    tokens.count .opening ≤ text.count '(' := by
  induction h with
  | nil _ => exact Nat.zero_le _
  | @cons gap token tokens rest _ _ ih =>
    rw [List.count_append, List.count_append]
    by_cases hOpening : token = .opening
    · subst hOpening
      have hOne : (spelling .opening).toList.count '(' = 1 := by decide
      rw [List.count_cons_self]
      omega
    · rw [List.count_cons_of_ne hOpening]
      omega

end Token

/-- Parsing fails for its depth below a threshold, and the limit plays no other part. -/
theorem exists_parse_threshold (tokens : List Token) :
    ∃ threshold result, threshold ≤ tokens.count .opening ∧
      (∀ limit, result ≠ .error (.tooDeep limit)) ∧
      ∀ limit, parse limit tokens =
        if limit < threshold then .error (.tooDeep limit) else result := by
  rcases Token.checkOperandCounts_cases tokens with hCounts | hCounts
  · cases tokens with
    | nil =>
      refine ⟨0, .error .empty, Nat.zero_le _, by simp, fun limit => ?_⟩
      rw [if_neg (Nat.not_lt_zero limit), parse, hCounts]
      rfl
    | cons first tokens =>
      refine ⟨Token.peak 0 tokens, Sketch.buildUnlimited first tokens, ?_,
        fun limit => Sketch.buildUnlimited_ne_tooDeep limit first tokens, fun limit => ?_⟩
      · have hPeak := Token.peak_le 0 tokens
        have hTail : tokens.count .opening ≤ (first :: tokens).count .opening :=
          List.count_le_count_cons
        omega
      · rw [parse, hCounts]
        exact Sketch.build_eq limit first tokens
  · -- The operands are counted before the limit is looked at, so this error hides its own.
    refine ⟨0, .error .tooManyOperands, Nat.zero_le _, by simp, fun limit => ?_⟩
    rw [if_neg (Nat.not_lt_zero limit), parse, hCounts]

theorem exists_evaluate_threshold (source : String) :
    ∃ threshold result, threshold ≤ source.toList.count '(' ∧
      (∀ limit, result ≠ .error (.parse (.tooDeep limit))) ∧
      ∀ limit, evaluate limit source =
        if limit < threshold then .error (.parse (.tooDeep limit)) else result := by
  cases hTokens : Token.tokenize source with
  | error error =>
    refine ⟨0, .error (.lexical error), Nat.zero_le _, by simp, fun limit => ?_⟩
    rw [if_neg (Nat.not_lt_zero limit), evaluate_of_tokenize_error limit hTokens]
  | ok tokens =>
    obtain ⟨-, -, hSpells⟩ := Token.readAll_eq_ok_iff.1 hTokens
    obtain ⟨threshold, parsed, hBound, hParsed, hParse⟩ := exists_parse_threshold tokens
    refine ⟨threshold, conclude parsed, Nat.le_trans hBound hSpells.count_opening_le, ?_, ?_⟩
    · intro limit h
      exact hParsed limit (conclude_eq_parse_error_iff.1 h)
    · intro limit
      rw [evaluate_of_tokenize limit hTokens, hParse]
      split <;> rfl

/-- The nesting limit decides only whether a text is rejected for its depth.  The limits that do so
are those below a threshold, which is at most the number of `(` in the text; with all others the
text has the same value or the same error.  So a higher limit gives the same result, unless the
lower one gave an error for the depth. -/
theorem exists_threshold (source : String) :
    ∃ threshold result, threshold ≤ source.toList.count '(' ∧
      (∀ limit, result ≠ .error (.parse (.tooDeep limit))) ∧
      (∀ limit, evaluate limit source =
        if limit < threshold then .error (.parse (.tooDeep limit)) else result) ∧
      ∀ low high, low ≤ high →
        evaluate low source = .error (.parse (.tooDeep low)) ∨
          evaluate high source = evaluate low source := by
  obtain ⟨threshold, result, hBound, hResult, hEvaluate⟩ := exists_evaluate_threshold source
  refine ⟨threshold, result, hBound, hResult, hEvaluate, ?_⟩
  intro low high hLe
  rcases Nat.lt_or_ge low threshold with hLow | hLow
  · left
    rw [hEvaluate, if_pos hLow]
  · right
    rw [hEvaluate, hEvaluate, if_neg (Nat.not_lt.2 hLow),
      if_neg (Nat.not_lt.2 (Nat.le_trans hLow hLe))]

end PrefixCalc
