/-!
# Errors

Every way in which a source text can fail to have a value, with the one message that reports it.
Three stages can fail: reading the text as tokens, reading the tokens as an expression, and working
the expression out.  Each has a type of its own, so no stage can fail for the reasons of another.

Whoever is told of an error does not see the stage.  The errors of the first two stages are all
errors of the text and share one type, `SourceError`, and it is from the variant alone that
`SourceError.isLexical` tells the stage again.  `Error.kind` is read off from there, and splits the
last stage in two.
-/

namespace PrefixCalc

/-- Why a source text is no expression.  The first four variants come from reading it as tokens, the
others from reading the tokens as an expression.  Positions count characters from zero. -/
inductive SourceError where
  /-- A character that starts no token. -/
  | unexpectedCharacter (character : Char) (position : Nat)
  /-- A text that starts like a number and is no numeral. -/
  | invalidNumber (literal : String) (position : Nat)
  /-- A numeral whose value needs more than 32 bits. -/
  | numberOutOfRange (literal : String) (position : Nat)
  /-- A text that starts with a letter and is neither keyword nor name. -/
  | invalidIdentifier (name : String) (position : Nat)
  /-- A group closes with more than two operands. -/
  | tooManyOperands
  /-- A `)` or `,` stands outside every group. -/
  | unbalanced
  /-- The tree has a node without a typed form. -/
  | malformed (details : String)
  /-- More groups are open at once than the limit allows. -/
  | tooDeep (limit : Nat)
  /-- There is no token at all. -/
  | empty
  deriving DecidableEq, Repr

namespace SourceError

/-- Whether the text has failed to be read as tokens. -/
def isLexical : SourceError → Bool
  | unexpectedCharacter .. | invalidNumber .. | numberOutOfRange .. | invalidIdentifier .. => true
  | tooManyOperands | unbalanced | malformed _ | tooDeep _ | empty => false

/-- The report of the error. -/
def message : SourceError → String
  | unexpectedCharacter character position =>
    "Unexpected character '" ++ character.toString ++ "' at position " ++ position.repr ++ "."
  | invalidNumber literal position =>
    "Invalid number '" ++ literal ++ "' at position " ++ position.repr ++ "."
  | numberOutOfRange literal position =>
    "Number '" ++ literal ++ "' at position " ++ position.repr ++ " does not fit in 32 bits."
  | invalidIdentifier name position =>
    "Invalid identifier '" ++ name ++ "' at position " ++ position.repr ++ "."
  | tooManyOperands => "Invalid number of arguments for an expression."
  | unbalanced => "Unbalanced parentheses or commas in the input."
  | malformed details => "Malformed expression: " ++ details ++ "."
  | tooDeep limit => "Expression is nested more than " ++ limit.repr ++ " levels deep."
  | empty => "No expression to parse."

end SourceError

/-- Why a text is no list of tokens. -/
inductive LexicalError where
  | unexpectedCharacter (character : Char) (position : Nat)
  | invalidNumber (literal : String) (position : Nat)
  | numberOutOfRange (literal : String) (position : Nat)
  | invalidIdentifier (name : String) (position : Nat)
  deriving DecidableEq, Repr

namespace LexicalError

/-- The error as one of the text. -/
def toSourceError : LexicalError → SourceError
  | unexpectedCharacter character position => .unexpectedCharacter character position
  | invalidNumber literal position => .invalidNumber literal position
  | numberOutOfRange literal position => .numberOutOfRange literal position
  | invalidIdentifier name position => .invalidIdentifier name position

@[simp]
theorem isLexical_toSourceError (error : LexicalError) : error.toSourceError.isLexical = true := by
  cases error <;> rfl

end LexicalError

/-- Why a list of tokens is no expression. -/
inductive ParseError where
  | tooManyOperands
  | unbalanced
  | malformed (details : String)
  | tooDeep (limit : Nat)
  | empty
  deriving DecidableEq, Repr

namespace ParseError

/-- The error as one of the text. -/
def toSourceError : ParseError → SourceError
  | tooManyOperands => .tooManyOperands
  | unbalanced => .unbalanced
  | malformed details => .malformed details
  | tooDeep limit => .tooDeep limit
  | empty => .empty

@[simp]
theorem isLexical_toSourceError (error : ParseError) : error.toSourceError.isLexical = false := by
  cases error <;> rfl

end ParseError

/-- Why an expression has no value. -/
inductive EvalError where
  /-- A variable is read before any binding of it is written. -/
  | unbound (name : String)
  | divisionByZero
  deriving DecidableEq, Repr

namespace EvalError

/-- The report of the error. -/
def message : EvalError → String
  | unbound name => "Unknown variable '" ++ name ++ "'."
  | divisionByZero => "Division by zero."

end EvalError

/-- What is wrong with the source. -/
inductive ErrorKind where
  | lexical
  | syntactic
  | binding
  | arithmetic
  deriving DecidableEq, Repr

/-- Why a source text has no value. -/
inductive Error where
  | lexical (error : LexicalError)
  | parse (error : ParseError)
  | eval (error : EvalError)
  deriving DecidableEq, Repr

/-- The kind of an error of the text. -/
def SourceError.kind (error : SourceError) : ErrorKind :=
  if error.isLexical then .lexical else .syntactic

namespace Error

/-- The error of the text, if it is one. -/
def source? : Error → Option SourceError
  | lexical error => some error.toSourceError
  | parse error => some error.toSourceError
  | eval _ => none

/-- The report of the error. -/
def message : Error → String
  | lexical error => error.toSourceError.message
  | parse error => error.toSourceError.message
  | eval error => error.message

/-- The kind of the error. -/
def kind : Error → ErrorKind
  | lexical error => error.toSourceError.kind
  | parse error => error.toSourceError.kind
  | eval (.unbound _) => .binding
  | eval .divisionByZero => .arithmetic

@[simp]
theorem kind_lexical (error : LexicalError) : (lexical error).kind = .lexical := by
  simp [kind, SourceError.kind]

@[simp]
theorem kind_parse (error : ParseError) : (parse error).kind = .syntactic := by
  simp [kind, SourceError.kind]

@[simp]
theorem kind_unbound (name : String) : (eval (.unbound name)).kind = .binding :=
  rfl

@[simp]
theorem kind_divisionByZero : (eval .divisionByZero).kind = .arithmetic :=
  rfl

end Error
end PrefixCalc
