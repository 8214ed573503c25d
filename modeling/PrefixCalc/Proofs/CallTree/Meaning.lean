import PrefixCalc.Proofs.CallTree.Building
import PrefixCalc.Proofs.CallTree.Operands

/-!
# The meaning of call notation

The check and the building of a call's tokens, beside the recursions on the call's tree.  The check
looks at every call of the tree, wherever it stands, and so does the limit: arguments that a call
has no use for are counted and nested like any others.  What is built is the expression of the tree,
for which such arguments might as well be missing.

Main statement: `check_and_build_tokens`.
-/

namespace PrefixCalc
namespace CallTree

/-- The first tree is the second or stands somewhere in it. -/
inductive Occurs : CallTree → CallTree → Prop
  | here (tree : CallTree) : Occurs tree tree
  | argument {part argument first : CallTree} {rest : List CallTree} (head : Option Keyword) :
      argument ∈ first :: rest → Occurs part argument → Occurs part (call head first rest)

/-- Some call in the tree has more than two operands behind its last argument that is a call. -/
def Crowded (tree : CallTree) : Prop :=
  ∃ head first rest, Occurs (call head first rest) tree ∧ 2 < trailing (first :: rest)

theorem restOverfull_eq_true_iff {arguments : List CallTree} :
    restOverfull arguments = true ↔ ∃ argument ∈ arguments, argument.overfull = true := by
  induction arguments with
  | nil => simp [restOverfull]
  | cons argument rest ih => simp [restOverfull, ih]

/-- A call is overfull on its own account or for one of its arguments. -/
theorem overfull_call_iff {head : Option Keyword} {first : CallTree} {rest : List CallTree} :
    (call head first rest).overfull = true ↔
      2 < trailing (first :: rest) ∨ ∃ argument ∈ first :: rest, argument.overfull = true := by
  have hMax : Token.maxOperands = 2 := rfl
  rw [overfull, hMax, Bool.or_eq_true, Bool.or_eq_true, decide_eq_true_eq, or_assoc,
    restOverfull_eq_true_iff, List.exists_mem_cons_iff]

theorem overfull_of_occurs {part tree : CallTree} (h : Occurs part tree)
    (hPart : part.overfull = true) : tree.overfull = true := by
  induction h with
  | here => exact hPart
  | argument head hMem _ ih => exact overfull_call_iff.2 (Or.inr ⟨_, hMem, ih⟩)

theorem crowded_of_overfull : (tree : CallTree) → tree.overfull = true → tree.Crowded
  | number _, h | var _, h | absent, h => absurd h (by simp [overfull])
  | call head first rest, h => by
    rcases overfull_call_iff.1 h with hMany | ⟨argument, hMem, hArgument⟩
    · exact ⟨head, first, rest, .here _, hMany⟩
    · obtain ⟨inner, one, others, hOccurs, hMany⟩ := crowded_of_overfull argument hArgument
      exact ⟨inner, one, others, .argument head hMem hOccurs, hMany⟩
termination_by tree => sizeOf tree
decreasing_by
  have hSize := List.sizeOf_lt_of_mem hMem
  simp only [List.cons.sizeOf_spec, call.sizeOf_spec] at hSize ⊢
  omega

/-- The recursion behind the check finds every crowded call. -/
theorem overfull_eq_true_iff {tree : CallTree} : tree.overfull = true ↔ tree.Crowded := by
  refine ⟨crowded_of_overfull tree, ?_⟩
  rintro ⟨head, first, rest, hOccurs, hMany⟩
  exact overfull_of_occurs hOccurs (overfull_call_iff.2 (Or.inl hMany))

/-- A call with a keyword in front and any number of arguments, each of any form: the check refuses
it exactly when some call in it is crowded, building finds it too deep exactly when its calls are
nested more deeply than the limit, and otherwise building gives the expression of the tree, or the
first fault of it. -/
theorem check_and_build_tokens (limit : Nat) (word : Keyword) (first : CallTree)
    (rest : List CallTree) :
    let tree := call (some word) first rest
    (Token.checkOperandCounts tree.tokens = .error .tooManyOperands ↔ tree.Crowded) ∧
    (Token.checkOperandCounts tree.tokens = .ok () ↔ ¬ tree.Crowded) ∧
    (Sketch.build limit tree.tokens = .error (.tooDeep limit) ↔ limit < tree.nesting) ∧
    (tree.nesting ≤ limit →
      Sketch.build limit tree.tokens =
        tree.expr.mapError fun fault => .malformed fault.details) := by
  intro tree
  have hBuild : Sketch.build limit tree.tokens = _ := build_tokens limit word first rest
  rw [checkOperandCounts_tokens, hBuild, ← overfull_eq_true_iff]
  refine ⟨by split <;> simp [*], by split <;> simp [*], ?_, fun hRoom => ?_⟩
  · split
    · next hDeep => exact iff_of_true rfl hDeep
    · next hRoom =>
      refine iff_of_false ?_ hRoom
      cases tree.expr <;> simp [Except.mapError]
  · exact if_neg (Nat.not_lt.2 hRoom)

/-- The third argument of `add` is dropped.  Its calls still count for the limit, and one of them is
still crowded. -/
theorem build_dropped_argument :
    let dropped := call (some (.op .sub)) (.number 4)
      [call (some (.op .div)) (.number 5) [.number 6, .var "x"]]
    let tree := call (some (.op .add)) (call (some (.op .mul)) (.number 1) [.number 2])
      [.number 3, dropped]
    tree.nesting = 3 ∧ Sketch.build 2 tree.tokens = .error (.tooDeep 2) ∧
      Sketch.build 3 tree.tokens =
        .ok (.op .add (.op .mul (.number 1) (.number 2)) (.number 3)) ∧
      Token.checkOperandCounts tree.tokens = .error .tooManyOperands := by
  intro dropped tree
  have hNesting : tree.nesting = 3 := by decide
  have hCrowded : tree.Crowded := overfull_eq_true_iff.1 (by decide)
  obtain ⟨hCheck, -, -, hExpr⟩ := check_and_build_tokens 3 (.op .add)
    (call (some (.op .mul)) (.number 1) [.number 2]) [.number 3, dropped]
  obtain ⟨-, -, hDeep, -⟩ := check_and_build_tokens 2 (.op .add)
    (call (some (.op .mul)) (.number 1) [.number 2]) [.number 3, dropped]
  exact ⟨hNesting, hDeep.2 (by decide), hExpr (by decide), hCheck.2 hCrowded⟩

end CallTree
end PrefixCalc
