/-!
# The arithmetic operators
-/

namespace PrefixCalc

/-- One of the four arithmetic operators. -/
inductive Operator where
  | add
  | sub
  | mul
  | div
  deriving DecidableEq, Repr

namespace Operator

/-- The word that calls the operator. -/
def spelling : Operator → String
  | add => "add"
  | sub => "sub"
  | mul => "mul"
  | div => "div"

/-- All operators. -/
def all : List Operator :=
  [add, sub, mul, div]

end Operator
end PrefixCalc
