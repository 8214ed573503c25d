import PrefixCalc.Proofs.Sketch.Step
import PrefixCalc.Sketch.ToExpr

/-!
# How many groups are open at once

Whether the limit stops a walk is settled by the tokens alone.  `Token.peak` is the most groups open
at once, up to the first `)` or `,` outside every group, where the walk stops for good, and
`Token.finalHeight?` is the number of groups still open at the end, if there is no such token.
`foldlM_openGroups` says that a limit below the peak makes the count fail with `tooDeep` and that
from the peak on the limit plays no part any more; `build_eq` says the same of building.
-/

namespace PrefixCalc
namespace Token

/-- The most groups open at once along the tokens, when `height` groups are open before them. -/
def peak (height : Nat) : List Token → Nat
  | [] => height
  | .opening :: tokens => peak (height + 1) tokens
  | .comma :: tokens => if height = 0 then 0 else peak height tokens
  | .closing :: tokens => if height = 0 then 0 else max height (peak (height - 1) tokens)
  | _ :: tokens => peak height tokens

/-- The number of groups open behind the tokens, unless a `)` or `,` stands outside every group. -/
def finalHeight? (height : Nat) : List Token → Option Nat
  | [] => some height
  | .opening :: tokens => finalHeight? (height + 1) tokens
  | .comma :: tokens => if height = 0 then none else finalHeight? height tokens
  | .closing :: tokens => if height = 0 then none else finalHeight? (height - 1) tokens
  | _ :: tokens => finalHeight? height tokens

/-- The groups that are open at the start count too. -/
theorem le_peak (height : Nat) (tokens : List Token) : height ≤ peak height tokens := by
  induction tokens generalizing height with
  | nil => exact Nat.le_refl height
  | cons token tokens ih =>
    cases token with
    | keyword _ | number _ | var _ => exact ih height
    | opening => exact Nat.le_of_succ_le (ih (height + 1))
    | comma =>
      rw [peak]
      split
      · omega
      · exact ih height
    | closing =>
      rw [peak]
      split
      · omega
      · exact Nat.le_max_left _ _

/-- Every group is opened by a token of its own. -/
theorem peak_le (height : Nat) (tokens : List Token) :
    peak height tokens ≤ height + tokens.count .opening := by
  induction tokens generalizing height with
  | nil => exact Nat.le_refl height
  | cons token tokens ih =>
    cases token with
    | keyword _ | number _ | var _ =>
      rw [List.count_cons_of_ne (by simp)]
      exact ih height
    | opening =>
      have hRest := ih (height + 1)
      rw [List.count_cons_self, peak]
      omega
    | comma =>
      have hRest := ih height
      rw [List.count_cons_of_ne (by simp), peak]
      split <;> omega
    | closing =>
      have hRest := ih (height - 1)
      rw [List.count_cons_of_ne (by simp), peak]
      split <;> omega

/-- The count of open groups under a limit: a limit below the peak stops it, and any other limit
lets it end as it would without one. -/
theorem foldlM_openGroups {limit height : Nat} (tokens : List Token) (hRoom : height ≤ limit) :
    tokens.foldlM (openGroups limit) height =
      if limit < peak height tokens then .error (.tooDeep limit)
      else
        match finalHeight? height tokens with
        | none => .error .unbalanced
        | some final => .ok final := by
  induction tokens generalizing height with
  | nil =>
    rw [peak, if_neg (Nat.not_lt.2 hRoom)]
    rfl
  | cons token tokens ih =>
    rw [List.foldlM_cons]
    cases token with
    | keyword _ | number _ | var _ => exact ih hRoom
    | opening =>
      rcases Nat.lt_or_ge height limit with hOpen | hFull
      · rw [openGroups, if_neg (Nat.not_le.2 hOpen)]
        exact ih hOpen
      · -- The count stops here, and the peak is above the limit whatever follows.
        have hPeak : limit < peak height (.opening :: tokens) :=
          Nat.lt_of_lt_of_le (Nat.lt_succ_of_le hFull) (le_peak (height + 1) tokens)
        rw [openGroups, if_pos hFull, if_pos hPeak]
        rfl
    | comma =>
      by_cases hZero : height = 0
      · simp [openGroups, peak, finalHeight?, hZero, bind, Except.bind]
      · rw [openGroups, peak, finalHeight?, if_neg hZero, if_neg hZero, if_neg hZero]
        exact ih hRoom
    | closing =>
      by_cases hZero : height = 0
      · simp [openGroups, peak, finalHeight?, hZero, bind, Except.bind]
      · -- The groups open before the bracket are within the limit, so the peak comes later.
        have hMax : limit < max height (peak (height - 1) tokens) ↔
            limit < peak (height - 1) tokens := by
          rw [lt_max_iff, or_iff_right (Nat.not_lt.2 hRoom)]
        rw [openGroups, peak, finalHeight?, if_neg hZero, if_neg hZero, if_neg hZero]
        simp only [hMax]
        exact ih (by omega)

end Token

namespace Sketch

/-- Drawing fails for its depth alone when the limit is below the peak of what follows the first
token; a limit that is no lower has no part in what is drawn. -/
theorem draw_eq (limit : Nat) (first : Token) (tokens : List Token) :
    draw limit (first :: tokens) =
      if limit < Token.peak 0 tokens then .error (.tooDeep limit)
      else
        match Token.finalHeight? 0 tokens with
        | none => .error .unbalanced
        | some _ => .ok (tokens.foldl advance (start first)) := by
  rw [draw, walk_eq]
  show (tokens.foldlM (Token.openGroups limit) 0).map _ = _
  rw [Token.foldlM_openGroups tokens (Nat.zero_le limit)]
  split
  · rfl
  · cases Token.finalHeight? 0 tokens <;> rfl

/-- What building gives when the limit is high enough. -/
def buildUnlimited (first : Token) (tokens : List Token) : Except ParseError Expr :=
  match Token.finalHeight? 0 tokens with
  | none => .error .unbalanced
  | some _ =>
    (tokens.foldl advance (start first)).toExpr.mapError fun fault => .malformed fault.details

theorem build_eq (limit : Nat) (first : Token) (tokens : List Token) :
    build limit (first :: tokens) =
      if limit < Token.peak 0 tokens then .error (.tooDeep limit)
      else buildUnlimited first tokens := by
  rw [build, draw_eq, buildUnlimited]
  by_cases h : limit < Token.peak 0 tokens
  · rw [if_pos h, if_pos h]
  · rw [if_neg h, if_neg h]
    cases Token.finalHeight? 0 tokens <;> rfl

/-- Without the limit there are two ways to fail. -/
theorem buildUnlimited_error_cases {first : Token} {tokens : List Token} {error : ParseError}
    (h : buildUnlimited first tokens = .error error) :
    error = .unbalanced ∨ ∃ fault : Fault, error = .malformed fault.details := by
  unfold buildUnlimited at h
  split at h
  · exact Or.inl (Except.error.inj h).symm
  · cases hExpr : (tokens.foldl advance (start first)).toExpr with
    | error fault =>
      rw [hExpr] at h
      exact Or.inr ⟨fault, (Except.error.inj h).symm⟩
    | ok e =>
      rw [hExpr] at h
      exact nomatch h

theorem buildUnlimited_ne_tooDeep (limit : Nat) (first : Token) (tokens : List Token) :
    buildUnlimited first tokens ≠ .error (.tooDeep limit) := by
  intro h
  rcases buildUnlimited_error_cases h with hError | ⟨fault, hError⟩ <;> exact nomatch hError

/-- As soon as there is a token, building does not fail for want of one. -/
theorem build_ne_empty (limit : Nat) (first : Token) (tokens : List Token) :
    build limit (first :: tokens) ≠ .error .empty := by
  intro h
  rw [build_eq] at h
  split at h
  · exact nomatch h
  · rcases buildUnlimited_error_cases h with hError | ⟨fault, hError⟩ <;> exact nomatch hError

end Sketch
end PrefixCalc
