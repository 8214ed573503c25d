import PrefixCalc.Eval
import PrefixCalc.Parse
import PrefixCalc.Token.Lexer

/-!
# From source text to value

All stages in a row.  Each source text gets its own tokens, tree and table; nothing is carried over
from one text to the next.  On request the tokens and the tree are shown, each as soon as its stage
has succeeded, so that a trace ends where the failure is.
-/

namespace PrefixCalc

/-- How a source text is to be evaluated. -/
structure Options where
  /-- How many groups may be open at once. -/
  maxDepth : Nat := defaultMaxDepth
  /-- Whether the tokens and the tree are shown. -/
  trace : Bool := false
  deriving DecidableEq, Repr

/-- What the evaluation of a source text gives. -/
structure Outcome where
  /-- The lines that show the stages passed. -/
  trace : List String
  result : Except Error Int32

/-- The line that shows the tokens. -/
def tokensLine (tokens : List Token) : String :=
  "tokens: " ++ Token.render tokens

/-- The line that shows the tree. -/
def treeLine (e : Expr) : String :=
  "tree:   " ++ e.render

/-- The evaluation of a source text. -/
def evaluateWith (options : Options) (source : String) : Outcome :=
  let shown (lines : List String) : List String := if options.trace then lines else []
  match Token.tokenize source with
  | .error error => ⟨[], .error (.lexical error)⟩
  | .ok tokens =>
    match parse options.maxDepth tokens with
    | .error error => ⟨shown [tokensLine tokens], .error (.parse error)⟩
    | .ok e => ⟨shown [tokensLine tokens, treeLine e], e.value.mapError .eval⟩

/-- The value of a source text, when at most `limit` groups may be open at once. -/
def evaluate (limit : Nat) (source : String) : Except Error Int32 :=
  (evaluateWith { maxDepth := limit } source).result

end PrefixCalc
