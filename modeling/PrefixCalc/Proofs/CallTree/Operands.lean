import PrefixCalc.Proofs.CallTree.Basic
import PrefixCalc.Proofs.Token.Tally

/-!
# Operands of call notation

The operand check does not count the arguments of a call.  An argument that is a call itself takes
the count back to zero, so what is counted at the end of a call are the operands behind its last
argument of that sort (`trailing`).  `checkOperandCounts_tokens` says that the check rejects a tree
exactly when one of its calls has too many of these.
-/

namespace PrefixCalc
namespace CallTree

/-- Whether the tree is a call. -/
def isCall : CallTree → Bool
  | call _ _ _ => true
  | _ => false

/-- Whether the tree is a number or a variable. -/
def isOperand : CallTree → Bool
  | number _ => true
  | var _ => true
  | _ => false

/-- The number of operands behind the last argument that is a call. -/
def trailing (arguments : List CallTree) : Nat :=
  ((arguments.reverse.takeWhile fun argument => !argument.isCall).filter isOperand).length

theorem trailing_le_length (arguments : List CallTree) :
    trailing arguments ≤ arguments.length := by
  calc trailing arguments
      ≤ (arguments.reverse.takeWhile fun argument => !argument.isCall).length :=
        List.length_filter_le _ _
    _ ≤ arguments.reverse.length := (List.takeWhile_prefix _).length_le
    _ = arguments.length := List.length_reverse

mutual

/-- Whether some call in the tree has too many operands behind its last argument that is a call. -/
def overfull : CallTree → Bool
  | number _ => false
  | var _ => false
  | absent => false
  | call _ first rest =>
    decide (Token.maxOperands < trailing (first :: rest)) || first.overfull || restOverfull rest

/-- Whether some call in some of the trees has. -/
def restOverfull : List CallTree → Bool
  | [] => false
  | argument :: rest => argument.overfull || restOverfull rest

end

/-- The number of operands since the last bracket, once the tree has been read. -/
def countAfter (count : Nat) : CallTree → Nat
  | number _ => count + 1
  | var _ => count + 1
  | absent => count
  | call _ _ _ => 0

/-- Counting along the arguments of a call leaves its trailing operands. -/
theorem foldl_countAfter (arguments : List CallTree) :
    arguments.foldl countAfter 0 = trailing arguments := by
  rw [List.foldl_eq_foldr_reverse, trailing]
  -- Seen from the last argument, the count goes on up to the first call.
  induction arguments.reverse with
  | nil => rfl
  | cons argument before ih =>
    rw [List.foldr_cons, ih]
    cases argument with
    | number _ | var _ =>
      rw [List.takeWhile_cons_of_pos rfl, List.filter_cons_of_pos rfl]
      rfl
    | absent =>
      rw [List.takeWhile_cons_of_pos rfl, List.filter_cons_of_neg (by simp [isOperand])]
      rfl
    | call head first rest =>
      rw [List.takeWhile_cons_of_neg (by simp [isCall])]
      rfl

/-- The bracket that closes a call looks at the trailing operands. -/
theorem foldlM_tally_closing (first : CallTree) (rest : List CallTree) (more : List Token) :
    (Token.closing :: more).foldlM Token.tally (rest.foldl countAfter (first.countAfter 0)) =
      if Token.maxOperands < trailing (first :: rest) then .error .tooManyOperands
      else more.foldlM Token.tally 0 := by
  have hCount : rest.foldl countAfter (first.countAfter 0) = trailing (first :: rest) :=
    foldl_countAfter (first :: rest)
  rw [hCount, List.foldlM_cons, Token.tally]
  split <;> rfl

mutual

/-- Reading a tree: the count stops in an overfull call, and otherwise goes on behind the tree. -/
theorem foldlM_tally_tokens (tree : CallTree) (count : Nat) (more : List Token) :
    (tree.tokens ++ more).foldlM Token.tally count =
      if tree.overfull then .error .tooManyOperands
      else more.foldlM Token.tally (tree.countAfter count) := by
  cases tree with
  | number _ | var _ | absent => rfl
  | call head first rest =>
    -- The keyword leaves the count alone and the bracket clears it.
    have hArguments : ((call head first rest).tokens ++ more).foldlM Token.tally count =
        (first.tokens ++ (restTokens rest ++ (.closing :: more))).foldlM Token.tally 0 := by
      rw [tokens, List.append_assoc, List.cons_append, List.append_assoc, List.append_assoc]
      cases head <;> rfl
    rw [hArguments, foldlM_tally_tokens first, foldlM_tally_restTokens rest, foldlM_tally_closing,
      overfull, countAfter]
    by_cases hTrailing : Token.maxOperands < trailing (first :: rest) <;>
      cases first.overfull <;> cases restOverfull rest <;> simp [hTrailing]

theorem foldlM_tally_restTokens (arguments : List CallTree) (count : Nat) (more : List Token) :
    (restTokens arguments ++ more).foldlM Token.tally count =
      if restOverfull arguments then .error .tooManyOperands
      else more.foldlM Token.tally (arguments.foldl countAfter count) := by
  cases arguments with
  | nil => rfl
  | cons argument rest =>
    have hComma : (restTokens (argument :: rest) ++ more).foldlM Token.tally count =
        (argument.tokens ++ (restTokens rest ++ more)).foldlM Token.tally count := by
      rw [restTokens, List.cons_append, List.append_assoc]
      rfl
    rw [hComma, foldlM_tally_tokens argument, foldlM_tally_restTokens rest, restOverfull,
      List.foldl_cons]
    cases argument.overfull <;> simp

end

/-- The operand check of a tree. -/
theorem checkOperandCounts_tokens (tree : CallTree) :
    Token.checkOperandCounts tree.tokens =
      if tree.overfull then .error .tooManyOperands else .ok () := by
  have hRun := foldlM_tally_tokens tree 0 []
  rw [List.append_nil] at hRun
  rw [Token.checkOperandCounts_eq, hRun]
  split <;> rfl

end CallTree
end PrefixCalc
