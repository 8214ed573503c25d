import PrefixCalc.Numeral
import PrefixCalc.Operator

/-!
# Tokens

The words and marks a source text is made of.  A token's spelling is the text that stands for it; a
list of tokens is shown as its spellings joined by one space.  A variable token may carry any text;
only the tokens that come from a source text are known to carry names.
-/

namespace PrefixCalc

/-- A word with a fixed meaning: an operator, or `let`. -/
inductive Keyword where
  | op (operator : Operator)
  | binding
  deriving DecidableEq, Repr

namespace Keyword

/-- The three letters of the keyword. -/
def spelling : Keyword → String
  | op operator => operator.spelling
  | binding => "let"

/-- All keywords. -/
def all : List Keyword :=
  Operator.all.map op ++ [binding]

/-- The number of characters of every keyword. -/
def width : Nat := 3

theorem length_spelling (keyword : Keyword) : keyword.spelling.toList.length = width := by
  rcases keyword with (_ | _ | _ | _) | _ <;> decide

/-- The keyword with exactly this spelling. -/
def ofSpelling? (text : List Char) : Option Keyword :=
  all.find? fun keyword => keyword.spelling.toList == text

end Keyword

/-- The smallest meaningful piece of a source text. -/
inductive Token where
  | keyword (word : Keyword)
  | number (value : Int32)
  | var (name : String)
  | comma
  | opening
  | closing
  deriving DecidableEq, Repr

namespace Token

/-- The source text of the token. -/
def spelling : Token → String
  | keyword word => word.spelling
  | number value => Numeral.ofWord value
  | var name => name
  | comma => ","
  | opening => "("
  | closing => ")"

/-- The spellings of the tokens, joined by one space. -/
def render (tokens : List Token) : String :=
  String.intercalate " " (tokens.map spelling)

/-- Whether the token is a number or a variable. -/
def isOperand : Token → Bool
  | number _ => true
  | var _ => true
  | _ => false

/-- The keyword that the token is, if it is one. -/
def keyword? : Token → Option Keyword
  | keyword word => some word
  | _ => none

end Token
end PrefixCalc
