import PrefixCalc.Proofs.CallTree.Building
import PrefixCalc.Proofs.Evaluate.Stages
import PrefixCalc.Proofs.Expr.Written
import PrefixCalc.Proofs.Token.Reading

/-!
# Reading written forms

What the stages make of a written form of an expression, whatever blanks it has.  It is always read
as the tokens of the expression if its names are readable, but it is not always parsed as the
expression: the operand check rejects bindings of leaves to leaves, a leaf is no call and so its only
token is lost, and the limit may be too low.

Main statement: `parse_tokens`, which puts the three in their order.
-/

namespace PrefixCalc
namespace Expr

theorem checkOperandCounts_tokens (e : Expr) :
    Token.checkOperandCounts e.tokens =
      if e.hasLeafBinding then .error .tooManyOperands else .ok () := by
  rw [← tokens_toCall, CallTree.checkOperandCounts_tokens, overfull_toCall]

/-- Building the written form of a leaf: the token is in the first place, where only its keyword
would count. -/
theorem build_tokens_of_isLeaf (limit : Nat) {e : Expr} (h : e.isLeaf = true) :
    Sketch.build limit e.tokens = .error (.malformed Fault.valueless.details) := by
  cases e with
  | number _ | var _ => rfl
  | op _ _ _ | binding _ _ _ => exact absurd h (by simp [isLeaf])

/-- Building any other written form. -/
theorem build_tokens_of_not_isLeaf (limit : Nat) {e : Expr} (h : e.isLeaf = false) :
    Sketch.build limit e.tokens =
      if limit + 1 < e.depth then .error (.tooDeep limit) else .ok e := by
  obtain ⟨word, first, rest, hCall⟩ :
      ∃ word first rest, e.toCall = .call (some word) first rest := by
    cases e with
    | number _ | var _ => exact absurd h (by simp [isLeaf])
    | op operator left right => exact ⟨_, _, _, rfl⟩
    | binding name value body => exact ⟨_, _, _, rfl⟩
  have hDepth : limit < e.toCall.nesting ↔ limit + 1 < e.depth := by
    rw [← nesting_toCall]
    omega
  rw [← tokens_toCall, hCall, CallTree.build_tokens, ← hCall, expr_toCall]
  simp only [hDepth]
  rfl

/-- What parsing makes of a written form. -/
theorem parse_tokens (limit : Nat) (e : Expr) :
    parse limit e.tokens =
      if e.hasLeafBinding then .error .tooManyOperands
      else if e.isLeaf then .error (.malformed Fault.valueless.details)
      else if limit + 1 < e.depth then .error (.tooDeep limit)
      else .ok e := by
  rw [parse, checkOperandCounts_tokens]
  cases e.hasLeafBinding with
  | true => rfl
  | false =>
    cases hLeaf : e.isLeaf with
    | true => exact build_tokens_of_isLeaf limit hLeaf
    | false => exact build_tokens_of_not_isLeaf limit hLeaf

/-- Every written form is read as the tokens of the expression. -/
theorem tokenize_written_form {e : Expr} {source : String}
    (hNames : ∀ name ∈ e.names, Token.Readable name)
    (hSpells : Token.Spells e.tokens source.toList) : Token.tokenize source = .ok e.tokens := by
  refine Token.readAll_of_spells (Token.forall_legible_iff.2 ?_) e.separated_tokens hSpells
  intro name hMem
  exact hNames name (var_mem_tokens_iff.1 hMem)

/-- A written form of an expression with readable names, be it the one that the expression is shown
as or one with other blanks, is read as the tokens of the expression.  Parsing these gives the
expression, unless the form has too many operands, is a leaf or is too deep, and then the value of
the source text is the value of the expression. -/
theorem evaluate_written_form (e : Expr) (limit : Nat) (source : String)
    (hNames : ∀ name ∈ e.names, Token.Readable name)
    (hSpells : Token.Spells e.tokens source.toList) :
    Token.Spells e.tokens e.render.toList ∧
    Token.tokenize source = .ok e.tokens ∧
    parse limit e.tokens =
      (if e.hasLeafBinding then .error .tooManyOperands
      else if e.isLeaf then .error (.malformed "operand has no value")
      else if limit + 1 < e.depth then .error (.tooDeep limit)
      else .ok e) ∧
    (parse limit e.tokens = .ok e →
      evaluate limit source = (e.eval .empty).1.mapError .eval) := by
  have hTokens := tokenize_written_form hNames hSpells
  refine ⟨e.spells_tokens, hTokens, parse_tokens limit e, ?_⟩
  intro hParse
  rw [evaluate_of_tokenize limit hTokens, hParse]
  rfl

/-- A binding with no blank where one is usual and two where there is none, under a limit that is
enough for it and under one that is not. -/
theorem evaluate_uneven_binding :
    let e := Expr.binding "x" (.op .mul (.number 2) (.number 3)) (.op .sub (.var "x") (.number 1))
    let source := "let (x,mul(2  ,3), sub( x\u00a0,1) )"
    (∀ name ∈ e.names, Token.Readable name) ∧ Token.Spells e.tokens source.toList ∧
      Token.tokenize source = .ok e.tokens ∧ parse 2 e.tokens = .ok e ∧
      evaluate 2 source = .ok 5 ∧ parse 1 e.tokens = .error (.tooDeep 1) := by
  intro e source
  have hTokens : Token.tokenize source = .ok e.tokens := by cbv
  obtain ⟨hLegible, -, hSpells⟩ := Token.readAll_eq_ok_iff.1 hTokens
  have hNames : ∀ name ∈ e.names, Token.Readable name := fun name hMem =>
    Token.forall_legible_iff.1 hLegible name (var_mem_tokens_iff.2 hMem)
  obtain ⟨-, -, hParse, hValue⟩ := evaluate_written_form e 2 source hNames hSpells
  obtain ⟨-, -, hTooDeep, -⟩ := evaluate_written_form e 1 source hNames hSpells
  have hTwo : parse 2 e.tokens = .ok e := hParse
  exact ⟨hNames, hSpells, hTokens, hTwo, hValue hTwo, hTooDeep⟩

end Expr
end PrefixCalc
