import PrefixCalc.Token.OperandCount

/-!
# Operands since the last bracket

The stack of the operand check only ever grows or loses the operands on its top, so the brackets
buried in it are never looked at again.  All that matters of it is how many operands lie on top,
which is how many have come since the last bracket: `checkOperandCounts_eq` says that the check is
this count and nothing more.
-/

namespace PrefixCalc
namespace Token

/-- The operands on top of a stack. -/
def topOperands (pending : List Pending) : Nat :=
  (pending.takeWhile (· == .operand)).length

/-- The number of operands since the last bracket, after one more token. -/
def tally (count : Nat) : Token → Except ParseError Nat
  | number _ => .ok (count + 1)
  | var _ => .ok (count + 1)
  | opening => .ok 0
  | closing => if maxOperands < count then .error .tooManyOperands else .ok 0
  | keyword _ => .ok count
  | comma => .ok count

theorem topOperands_dropWhile (pending : List Pending) :
    topOperands (pending.dropWhile (· == .operand)) = 0 := by
  induction pending with
  | nil => rfl
  | cons entry pending ih =>
    cases entry with
    | operand => exact ih
    | bracket => rfl

theorem countStep_tally (pending : List Pending) (token : Token) :
    (countStep pending token).map topOperands = tally (topOperands pending) token := by
  cases token with
  | keyword _ | comma | opening | number _ | var _ => rfl
  | closing =>
    show Except.map topOperands (if maxOperands < topOperands pending then _ else .ok _) =
      if maxOperands < topOperands pending then _ else .ok 0
    split
    · rfl
    · exact congrArg Except.ok (topOperands_dropWhile pending)

/-- The run of the check on a stack is the run of the count on its top. -/
theorem foldlM_countStep (pending : List Pending) (tokens : List Token) :
    (tokens.foldlM countStep pending).map topOperands =
      tokens.foldlM tally (topOperands pending) := by
  induction tokens generalizing pending with
  | nil => rfl
  | cons token tokens ih =>
    rw [List.foldlM_cons, List.foldlM_cons, ← countStep_tally]
    cases hStep : countStep pending token with
    | error error => rfl
    | ok next => exact ih next

theorem checkOperandCounts_eq (tokens : List Token) :
    checkOperandCounts tokens = (tokens.foldlM tally 0).map fun _ => () := by
  have hRun : (tokens.foldlM countStep []).map topOperands = tokens.foldlM tally 0 :=
    foldlM_countStep [] tokens
  rw [checkOperandCounts, ← hRun]
  cases tokens.foldlM countStep [] <;> rfl

theorem foldlM_tally_error {count : Nat} {tokens : List Token} {error : ParseError}
    (h : tokens.foldlM tally count = .error error) : error = .tooManyOperands := by
  induction tokens generalizing count with
  | nil => exact absurd h (by simp [pure, Except.pure])
  | cons token tokens ih =>
    rw [List.foldlM_cons] at h
    cases hStep : tally count token with
    | ok next =>
      rw [hStep] at h
      exact ih h
    | error first =>
      rw [hStep] at h
      obtain rfl : first = error := Except.error.inj h
      cases token with
      | keyword _ | comma | opening | number _ | var _ => exact absurd hStep (by simp [tally])
      | closing =>
        simp only [tally] at hStep
        split at hStep
        · exact (Except.error.inj hStep).symm
        · exact absurd hStep (by simp)

/-- The check has one complaint to make. -/
theorem checkOperandCounts_cases (tokens : List Token) :
    checkOperandCounts tokens = .ok () ∨ checkOperandCounts tokens = .error .tooManyOperands := by
  rw [checkOperandCounts_eq]
  cases h : tokens.foldlM tally 0 with
  | ok count => exact Or.inl rfl
  | error error =>
    rw [foldlM_tally_error h]
    exact Or.inr rfl

end Token
end PrefixCalc
