import PrefixCalc.Expr
import PrefixCalc.Proofs.CallTree.Operands
import PrefixCalc.Proofs.Token.Spelling

/-!
# Written forms of expressions

The tokens of the written form of an expression, what they look like as text and which call tree
they are.  An operator is a call with two arguments and a binding one with three.  So among the calls
of such a tree only a binding can have more operands in a row than the operand check allows, and it
does when its value and its body are both leaves (`hasLeafBinding`).
-/

namespace PrefixCalc
namespace Expr

/-- The tokens of the written form. -/
def tokens : Expr → List Token
  | number value => [.number value]
  | var name => [.var name]
  | op operator left right =>
    .keyword (.op operator) :: .opening :: (left.tokens ++ .comma :: (right.tokens ++ [.closing]))
  | binding name value body =>
    .keyword .binding :: .opening :: .var name :: .comma ::
      (value.tokens ++ .comma :: (body.tokens ++ [.closing]))

/-- Whether there is a binding whose value and body are both leaves. -/
def hasLeafBinding : Expr → Bool
  | number _ => false
  | var _ => false
  | op _ left right => left.hasLeafBinding || right.hasLeafBinding
  | binding _ value body =>
    (value.isLeaf && body.isLeaf) || value.hasLeafBinding || body.hasLeafBinding

theorem var_mem_tokens_iff {e : Expr} {name : String} : Token.var name ∈ e.tokens ↔ name ∈ e.names := by
  induction e with
  | number _ => simp [tokens, names]
  | var _ => simp [tokens, names]
  | op _ _ _ ihLeft ihRight => simp [tokens, names, ihLeft, ihRight]
  | binding _ _ _ ihValue ihBody => simp [tokens, names, ihValue, ihBody]

/-! ## As text -/

/-- The written form is a text for its tokens. -/
theorem spells_tokens (e : Expr) : Token.Spells e.tokens e.render.toList := by
  have hOpening : Token.Spells [.opening] "(".toList := Token.spells_singleton .opening
  have hClosing : Token.Spells [.closing] ")".toList := Token.spells_singleton .closing
  have hComma : Token.Spells [.comma] ", ".toList := by
    have hSpace : Text.IsGap [' '] := by
      intro c hc
      rw [List.mem_singleton.1 hc]
      decide
    exact Token.Spells.cons_append (.nil hSpace)
  induction e with
  | number value => exact Token.spells_singleton (.number value)
  | var name => exact Token.spells_singleton (.var name)
  | op operator left right ihLeft ihRight =>
    have h := ((Token.spells_singleton (.keyword (.op operator))).append hOpening).append
      (ihLeft.append (hComma.append (ihRight.append hClosing)))
    simpa [tokens, render, Token.spelling, Keyword.spelling] using h
  | binding name value body ihValue ihBody =>
    have h := ((Token.spells_singleton (.keyword .binding)).append hOpening).append
      (((Token.spells_singleton (.var name)).append hComma).append
        (ihValue.append (hComma.append (ihBody.append hClosing))))
    simpa [tokens, render, Token.spelling, Keyword.spelling] using h

/-- Every operand of the written form stands before a `,` or a `)`, if what comes behind the form
starts with one. -/
theorem separated_tokens_append (e : Expr) (more : List Token)
    (hNext : ∀ next ∈ more.head?, next = .comma ∨ next = .closing) (hMore : Token.Separated more) :
    Token.Separated (e.tokens ++ more) := by
  induction e generalizing more with
  | number _ | var _ => exact List.isChain_cons.2 ⟨fun next hHead _ => hNext next hHead, hMore⟩
  | op operator left right ihLeft ihRight =>
    have hClosing : Token.Separated (.closing :: more) := hMore.cons_of_not_isOperand rfl
    have hRight := ihRight (.closing :: more) (by simp) hClosing
    have hLeft := ihLeft (.comma :: (right.tokens ++ .closing :: more)) (by simp)
      (hRight.cons_of_not_isOperand rfl)
    have hCall : Token.Separated (.keyword (.op operator) :: .opening :: (left.tokens ++ _)) :=
      (hLeft.cons_of_not_isOperand rfl).cons_of_not_isOperand rfl
    simpa [tokens] using hCall
  | binding name value body ihValue ihBody =>
    have hClosing : Token.Separated (.closing :: more) := hMore.cons_of_not_isOperand rfl
    have hBody := ihBody (.closing :: more) (by simp) hClosing
    have hValue := ihValue (.comma :: (body.tokens ++ .closing :: more)) (by simp)
      (hBody.cons_of_not_isOperand rfl)
    have hName : Token.Separated (.var name :: .comma :: (value.tokens ++ _)) :=
      List.isChain_cons.2 ⟨by simp, hValue.cons_of_not_isOperand rfl⟩
    have hCall : Token.Separated (.keyword .binding :: .opening :: .var name :: .comma :: _) :=
      (hName.cons_of_not_isOperand rfl).cons_of_not_isOperand rfl
    simpa [tokens] using hCall

theorem separated_tokens (e : Expr) : Token.Separated e.tokens := by
  have h := e.separated_tokens_append [] (by simp) List.isChain_nil
  rwa [List.append_nil] at h

/-! ## As a call -/

/-- The written form as a call tree. -/
def toCall : Expr → CallTree
  | number value => .number value
  | var name => .var name
  | op operator left right => .call (some (.op operator)) left.toCall [right.toCall]
  | binding name value body => .call (some .binding) (.var name) [value.toCall, body.toCall]

theorem tokens_toCall (e : Expr) : e.toCall.tokens = e.tokens := by
  induction e with
  | number _ => rfl
  | var _ => rfl
  | op _ _ _ ihLeft ihRight =>
    simp [toCall, tokens, CallTree.tokens, CallTree.restTokens, ihLeft, ihRight]
  | binding _ _ _ ihValue ihBody =>
    simp [toCall, tokens, CallTree.tokens, CallTree.restTokens, ihValue, ihBody]

/-- The call tree stands for the expression. -/
theorem expr_toCall (e : Expr) : e.toCall.expr = .ok e := by
  induction e with
  | number _ => rfl
  | var _ => rfl
  | op _ _ _ ihLeft ihRight =>
    rw [toCall, CallTree.expr, CallTree.restExprs, ihLeft, ihRight]
    rfl
  | binding _ _ _ ihValue ihBody =>
    rw [toCall, CallTree.expr, CallTree.restExprs, CallTree.restExprs, ihValue, ihBody]
    rfl

/-- A leaf is not nested at all, and every level of an expression is a call. -/
theorem nesting_toCall (e : Expr) : e.toCall.nesting + 1 = e.depth := by
  induction e with
  | number _ => rfl
  | var _ => rfl
  | op _ left right ihLeft ihRight =>
    rw [toCall, CallTree.nesting, CallTree.restNesting, CallTree.restNesting, depth]
    omega
  | binding _ value body ihValue ihBody =>
    rw [toCall, CallTree.nesting, CallTree.restNesting, CallTree.restNesting, CallTree.restNesting,
      CallTree.nesting, depth]
    omega

/-- Behind the name of a binding two leaves make one operand too many. -/
theorem maxOperands_lt_trailing (name : String) (value body : Expr) :
    decide (Token.maxOperands < CallTree.trailing [.var name, value.toCall, body.toCall]) =
      (value.isLeaf && body.isLeaf) := by
  cases value <;> cases body <;> rfl

/-- The calls with too many operands are the bindings of leaves to leaves. -/
theorem overfull_toCall (e : Expr) : e.toCall.overfull = e.hasLeafBinding := by
  induction e with
  | number _ => rfl
  | var _ => rfl
  | op _ left right ihLeft ihRight =>
    have hFew : ¬ Token.maxOperands < CallTree.trailing [left.toCall, right.toCall] :=
      Nat.not_lt.2 (CallTree.trailing_le_length _)
    rw [toCall, CallTree.overfull, decide_eq_false hFew, CallTree.restOverfull,
      CallTree.restOverfull, ihLeft, ihRight, Bool.false_or, Bool.or_false, hasLeafBinding]
  | binding name value body ihValue ihBody =>
    rw [toCall, CallTree.overfull, maxOperands_lt_trailing, CallTree.overfull,
      CallTree.restOverfull, CallTree.restOverfull, CallTree.restOverfull, ihValue, ihBody,
      Bool.or_false, Bool.or_false, hasLeafBinding, Bool.or_assoc]

end Expr
end PrefixCalc
