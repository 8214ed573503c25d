import PrefixCalc.Numeral
import PrefixCalc.Operator

/-!
# Expressions

The typed tree of a source text: every operator has two operands, every binding a name, a value and
a body.  Names are any text here.  The written form puts the operands in brackets behind the word
that calls them, with a comma and a space between.
-/

namespace PrefixCalc

/-- An integer expression with named intermediate results. -/
inductive Expr where
  | number (value : Int32)
  | var (name : String)
  | op (operator : Operator) (left right : Expr)
  | binding (name : String) (value body : Expr)
  deriving DecidableEq, Repr

namespace Expr

/-- The written form of the expression. -/
def render : Expr → String
  | number value => Numeral.ofWord value
  | var name => name
  | op operator left right => operator.spelling ++ "(" ++ left.render ++ ", " ++ right.render ++ ")"
  | binding name value body =>
    "let(" ++ name ++ ", " ++ value.render ++ ", " ++ body.render ++ ")"

/-- The names of all variables and bindings, in the order in which they are written. -/
def names : Expr → List String
  | number _ => []
  | var name => [name]
  | op _ left right => left.names ++ right.names
  | binding name value body => name :: (value.names ++ body.names)

/-- The number of nodes on the longest path from the root to a leaf. -/
def depth : Expr → Nat
  | number _ => 1
  | var _ => 1
  | op _ left right => 1 + max left.depth right.depth
  | binding _ value body => 1 + max value.depth body.depth

/-- Whether the expression is a number or a variable. -/
def isLeaf : Expr → Bool
  | number _ => true
  | var _ => true
  | _ => false

end Expr
end PrefixCalc
