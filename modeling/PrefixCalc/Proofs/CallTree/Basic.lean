import PrefixCalc.Sketch.ToExpr

/-!
# Call notation

Well-bracketed tokens, as trees: a call has a head, which may be missing, and one or more arguments,
which may be empty.  This is more than the written forms of expressions, for a call may have any
number of arguments, but it is what brackets and commas alone say about a list of tokens.  What such
a tree means is said here by recursion on the tree, without drafts: `expr` is the expression it
stands for, or the first fault, and `nesting` the most calls around one place.
-/

namespace PrefixCalc

/-- Tokens with matching brackets. -/
inductive CallTree where
  | number (value : Int32)
  | var (name : String)
  /-- An argument without a token. -/
  | absent
  /-- A call with its first argument and all others. -/
  | call (head : Option Keyword) (first : CallTree) (rest : List CallTree)

namespace CallTree

mutual

/-- The tokens of the tree. -/
def tokens : CallTree → List Token
  | number value => [.number value]
  | var name => [.var name]
  | absent => []
  | call head first rest =>
    (head.map Token.keyword).toList ++
      .opening :: (first.tokens ++ (restTokens rest ++ [.closing]))

/-- The tokens of further arguments, each behind a comma. -/
def restTokens : List CallTree → List Token
  | [] => []
  | argument :: rest => .comma :: (argument.tokens ++ restTokens rest)

end

mutual

/-- How deeply calls are nested. -/
def nesting : CallTree → Nat
  | number _ => 0
  | var _ => 0
  | absent => 0
  | call _ first rest => 1 + max first.nesting (restNesting rest)

/-- How deeply calls are nested in some of the trees. -/
def restNesting : List CallTree → Nat
  | [] => 0
  | argument :: rest => max argument.nesting (restNesting rest)

end

theorem nesting_le_restNesting {argument : CallTree} {rest : List CallTree}
    (h : argument ∈ rest) : argument.nesting ≤ restNesting rest := by
  induction rest with
  | nil => exact absurd h List.not_mem_nil
  | cons other rest ih =>
    rcases List.mem_cons.1 h with rfl | h
    · exact Nat.le_max_left _ _
    · exact Nat.le_trans (ih h) (Nat.le_max_right _ _)

/-- The arguments of a call are nested one level less than the call. -/
theorem nesting_succ_le_of_mem {argument first : CallTree} {rest : List CallTree}
    (head : Option Keyword) (h : argument ∈ first :: rest) :
    argument.nesting + 1 ≤ (call head first rest).nesting := by
  rw [nesting]
  rcases List.mem_cons.1 h with rfl | h
  · omega
  · have hRest := nesting_le_restNesting h
    omega

/-- The name that the tree is, if it is one. -/
def name? : CallTree → Option String
  | var name => some name
  | _ => none

/-- Two outcomes as one; the left one decides first. -/
def both (make : Expr → Expr → Expr) (left right : Except Fault Expr) : Except Fault Expr :=
  match left with
  | .error fault => .error fault
  | .ok l => right.map (make l)

/-- What a call stands for, given the name of its first argument and what its arguments stand for.
An operator takes two arguments and `let` three; what comes behind them is ignored. -/
def assemble (head : Option Keyword) (name : Option String) (first : Except Fault Expr) :
    List (Except Fault Expr) → Except Fault Expr
  | [] => .error .valueless
  | second :: rest =>
    match head with
    | none => .error .notOperator
    | some (.op operator) => both (Expr.op operator) first second
    | some .binding =>
      match name, rest with
      | none, _ => .error .unnamed
      | some _, [] => .error .bodiless
      | some name, third :: _ => both (Expr.binding name) second third

mutual

/-- The expression that the tree stands for, or why there is none. -/
def expr : CallTree → Except Fault Expr
  | number value => .ok (.number value)
  | var name => .ok (.var name)
  | absent => .error .valueless
  | call head first rest => assemble head first.name? first.expr (restExprs rest)

/-- The expressions that the trees stand for. -/
def restExprs : List CallTree → List (Except Fault Expr)
  | [] => []
  | argument :: rest => argument.expr :: restExprs rest

end

end CallTree
end PrefixCalc
