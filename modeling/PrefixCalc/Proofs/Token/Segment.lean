import Mathlib
import PrefixCalc.Proofs.Token.Tally

/-!
# Operands between two brackets

What the operand check enforces, said without its stack.  A `)` is refused for the tokens between
it and the nearest bracket before it, of either kind and whether it matches or not: there may be two
operands among these and no more.  Which groups are open plays no part, so the check is neither a
count of arguments nor a check of balance.

Main statement: `checkOperandCounts_eq_error_iff`.
-/

namespace PrefixCalc
namespace Token

/-- Whether the token is a bracket of either kind. -/
def isBracket : Token → Bool
  | opening => true
  | closing => true
  | _ => false

/-- The tokens behind the last bracket, or all tokens when there is no bracket. -/
def sinceBracket (tokens : List Token) : List Token :=
  tokens.rtakeWhile fun token => !token.isBracket

/-- The number of operands since the last bracket, after a token that the check lets pass. -/
def recount (count : Nat) (token : Token) : Nat :=
  if token.isBracket then 0 else if token.isOperand then count + 1 else count

/-- One step of the count: it stops at a `)` behind too many operands, and nowhere else. -/
theorem tally_eq (count : Nat) (token : Token) :
    tally count token =
      if token = closing ∧ maxOperands < count then .error .tooManyOperands
      else .ok (recount count token) := by
  cases token with
  | keyword _ | number _ | var _ | comma | opening => simp [tally, recount, isBracket, isOperand]
  | closing => simp [tally, recount, isBracket]

/-- The running count is the number of operands behind the last bracket. -/
theorem foldl_recount (tokens : List Token) :
    tokens.foldl recount 0 = (sinceBracket tokens).countP isOperand := by
  induction tokens using List.reverseRecOn with
  | nil => rfl
  | append_singleton tokens token ih =>
    rw [List.foldl_concat, ih, sinceBracket, sinceBracket, List.rtakeWhile_concat, recount]
    cases hBracket : token.isBracket with
    | true => rfl
    | false => cases hOperand : token.isOperand <;> simp [hOperand]

/-- A run of the count stops exactly when some `)` comes behind too many operands. -/
theorem foldlM_tally_eq_error_iff (count : Nat) (tokens : List Token) :
    tokens.foldlM tally count = .error .tooManyOperands ↔
      ∃ j, tokens[j]? = some closing ∧ maxOperands < (tokens.take j).foldl recount count := by
  induction tokens generalizing count with
  | nil => simp [pure, Except.pure]
  | cons token tokens ih =>
    rw [List.foldlM_cons, tally_eq]
    by_cases hStop : token = closing ∧ maxOperands < count
    · rw [if_pos hStop]
      exact iff_of_true rfl ⟨0, congrArg some hStop.1, hStop.2⟩
    · rw [if_neg hStop]
      -- The first token lets the run pass, so a `)` that stops it stands among the others.
      show tokens.foldlM tally (recount count token) = _ ↔ _
      rw [ih]
      constructor
      · rintro ⟨j, hClosing, hCount⟩
        exact ⟨j + 1, hClosing, hCount⟩
      · rintro ⟨j, hClosing, hCount⟩
        cases j with
        | zero => exact absurd ⟨Option.some.inj hClosing, hCount⟩ hStop
        | succ j => exact ⟨j, hClosing, hCount⟩

/-- The operand check refuses a list of tokens exactly when, for some `)` in it, the tokens between
this `)` and the nearest bracket before it hold three operands or more; every other list passes. -/
theorem checkOperandCounts_eq_error_iff (tokens : List Token) :
    (checkOperandCounts tokens = .error .tooManyOperands ↔
      ∃ j, tokens[j]? = some closing ∧ 3 ≤ (sinceBracket (tokens.take j)).countP isOperand) ∧
    (checkOperandCounts tokens = .ok () ↔
      ¬ ∃ j, tokens[j]? = some closing ∧ 3 ≤ (sinceBracket (tokens.take j)).countP isOperand) := by
  have hRefused : checkOperandCounts tokens = .error .tooManyOperands ↔
      ∃ j, tokens[j]? = some closing ∧ 3 ≤ (sinceBracket (tokens.take j)).countP isOperand := by
    have hRun : tokens.foldlM tally 0 = .error .tooManyOperands ↔
        ∃ j, tokens[j]? = some closing ∧ 3 ≤ (sinceBracket (tokens.take j)).countP isOperand := by
      have h := foldlM_tally_eq_error_iff 0 tokens
      simp only [foldl_recount] at h
      exact h
    rw [checkOperandCounts_eq, ← hRun]
    cases tokens.foldlM tally 0 <;> simp [Except.map]
  refine ⟨hRefused, ?_⟩
  rw [← hRefused]
  rcases checkOperandCounts_cases tokens with hPass | hRefuse
  · simp [hPass]
  · simp [hRefuse]

/-- A bracket that closes nothing counts as a bracket: `1, 2) 3)` passes and `) 1 2 3)` does not. -/
example :
    checkOperandCounts [number 1, comma, number 2, closing, number 3, closing] = .ok () ∧
      checkOperandCounts [closing, number 1, number 2, number 3, closing] =
        .error .tooManyOperands := by
  decide

end Token
end PrefixCalc
