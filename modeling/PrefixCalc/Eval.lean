import PrefixCalc.Bindings
import PrefixCalc.Error
import PrefixCalc.Expr

/-!
# Evaluation

Words of 32 bits, wrapping around.  Operands are worked out from left to right, and a binding is
written as soon as its value is known.  There is one table for the whole walk: a binding is not
undone at the end of its body, so it is seen by everything that is worked out later, and the table
that a failure leaves behind holds what was written before it.  This is not lexical scope.
-/

namespace PrefixCalc
namespace Operator

/-- The operator applied to two words.  Sums, differences and products wrap around; a quotient loses
its fraction, and the one quotient that does not fit wraps around too. -/
def apply (operator : Operator) (left right : Int32) : Except EvalError Int32 :=
  match operator with
  | add => .ok (left + right)
  | sub => .ok (left - right)
  | mul => .ok (left * right)
  | div => if right = 0 then .error .divisionByZero else .ok (left / right)

/-- An operator fails only as a division by zero. -/
theorem apply_eq_error_iff {operator : Operator} {left right : Int32} {error : EvalError} :
    operator.apply left right = .error error ↔
      operator = div ∧ right = 0 ∧ error = .divisionByZero := by
  cases operator with
  | div => by_cases hZero : right = 0 <;> simp [apply, hZero, eq_comm]
  | _ => simp [apply]

end Operator

namespace Expr

/-- The value of the expression, or why it has none, and the table afterwards. -/
def eval (e : Expr) (table : Bindings) : Except EvalError Int32 × Bindings :=
  match e with
  | number value => (.ok value, table)
  | var name =>
    match table.get? name with
    | some value => (.ok value, table)
    | none => (.error (.unbound name), table)
  | op operator left right =>
    match left.eval table with
    | (.error error, afterLeft) => (.error error, afterLeft)
    | (.ok l, afterLeft) =>
      match right.eval afterLeft with
      | (.error error, afterRight) => (.error error, afterRight)
      | (.ok r, afterRight) => (operator.apply l r, afterRight)
  | binding name value body =>
    match value.eval table with
    | (.error error, afterValue) => (.error error, afterValue)
    | (.ok v, afterValue) => body.eval (afterValue.bind name v)

/-- The value of the expression when no name is bound beforehand. -/
def value (e : Expr) : Except EvalError Int32 :=
  (e.eval .empty).1

end Expr
end PrefixCalc
