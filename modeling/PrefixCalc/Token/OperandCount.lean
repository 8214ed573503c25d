import PrefixCalc.Error
import PrefixCalc.Token

/-!
# Operand counts

A look at the tokens before any tree is drawn: no `)` may close over more than two operands.  The
check keeps a stack of the operands and opening brackets met so far.  A `)` takes the operands off
the top and leaves the bracket below them in place, so the brackets on the stack never match up with
the groups still open: a bracket that has been closed still hides the operands before it.  The check
therefore does not count the arguments of a call, and it accepts tokens that are out of balance.
-/

namespace PrefixCalc
namespace Token

/-- An entry of the stack. -/
inductive Pending where
  | operand
  | bracket
  deriving DecidableEq, Repr

/-- The most operands that a `)` may take off the stack. -/
def maxOperands : Nat := 2

/-- The stack after one more token; its top comes first. -/
def countStep (pending : List Pending) : Token → Except ParseError (List Pending)
  | number _ => .ok (.operand :: pending)
  | var _ => .ok (.operand :: pending)
  | opening => .ok (.bracket :: pending)
  | closing =>
    if maxOperands < (pending.takeWhile (· == .operand)).length then .error .tooManyOperands
    else .ok (pending.dropWhile (· == .operand))
  | _ => .ok pending

/-- Whether no `)` of the tokens closes over too many operands. -/
def checkOperandCounts (tokens : List Token) : Except ParseError Unit :=
  (tokens.foldlM countStep []).map fun _ => ()

end Token
end PrefixCalc
