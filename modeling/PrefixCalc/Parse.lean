import PrefixCalc.Sketch.ToExpr
import PrefixCalc.Token.OperandCount

/-!
# Reading an expression from tokens

The operand counts are checked over all tokens before the tree is drawn, so an excess of operands is
reported before a stray bracket, an excess of depth or a malformed tree, wherever these stand.
-/

namespace PrefixCalc

/-- How many groups may be open at once when nothing else is asked for. -/
def defaultMaxDepth : Nat := 256

/-- The expression that a list of tokens stands for, when at most `limit` groups may be open at
once. -/
def parse (limit : Nat) (tokens : List Token) : Except ParseError Expr :=
  match Token.checkOperandCounts tokens with
  | .error error => .error error
  | .ok _ => Sketch.build limit tokens

end PrefixCalc
