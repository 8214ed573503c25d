import PrefixCalc.Expr
import PrefixCalc.Sketch

/-!
# From a sketch to an expression

What a draft becomes is decided by the slots it has filled and not by its keyword alone: a first and
a middle child make a binding, a first and a last child make an operator, anything else is read as a
leaf.  The name of a binding is the name on its first child, which is not read any further.  A fault
of a draft comes before the faults of its children, and those of a left child before those of a
right one.

The sketch is only read here, never changed.  The reading descends at most a given number of levels,
and the answer is `none` when that is not enough or when a slot holds no number of a draft.
-/

namespace PrefixCalc

/-- Why a draft has no typed form. -/
inductive Fault where
  /-- A binding whose first child carries no name. -/
  | unnamed
  /-- A binding without a last child. -/
  | bodiless
  /-- Two operands at a draft whose keyword is no operator. -/
  | notOperator
  /-- A leaf with neither a number nor a name. -/
  | valueless
  deriving DecidableEq, Repr

namespace Fault

/-- The words that describe the fault. -/
def details : Fault → String
  | unnamed => "let requires a name"
  | bodiless => "let requires a body"
  | notOperator => "operands given to a non-operator"
  | valueless => "operand has no value"

end Fault

/-- What a draft without operands becomes. -/
inductive Leaf where
  | number (value : Int32)
  | var (name : String)
  deriving DecidableEq, Repr

/-- The leaf as an expression. -/
def Leaf.toExpr : Leaf → Expr
  | number value => .number value
  | var name => .var name

/-- What a draft becomes, its children still being numbers of drafts. -/
inductive Shape where
  | leaf (leaf : Leaf)
  | op (operator : Operator) (left right : Nat)
  | binding (name : String) (value body : Nat)
  deriving DecidableEq, Repr

namespace Draft

/-- What a draft without operands becomes; a number counts before a name. -/
def leaf (draft : Draft) : Except Fault Leaf :=
  match draft.number, draft.name with
  | some value, _ => .ok (.number value)
  | none, some name => .ok (.var name)
  | none, none => .error .valueless

/-- What a draft becomes.  `nameOf` tells the name that another draft carries. -/
def shape (nameOf : Nat → Option String) (draft : Draft) : Except Fault Shape :=
  match draft.first, draft.middle, draft.last with
  | some first, some middle, last =>
    match nameOf first, last with
    | none, _ => .error .unnamed
    | some _, none => .error .bodiless
    | some name, some last => .ok (.binding name middle last)
  | some first, none, some last =>
    match draft.keyword with
    | some (.op operator) => .ok (.op operator first last)
    | _ => .error .notOperator
  | _, _, _ => draft.leaf.map .leaf

end Draft

namespace Sketch

/-- The name that draft number `id` carries. -/
def nameOf (drafts : Array Draft) (id : Nat) : Option String :=
  drafts[id]?.bind Draft.name

/-- The expression under draft number `id`, descending at most `levels` levels. -/
def exprWithin (drafts : Array Draft) : Nat → Nat → Option (Except Fault Expr)
  | 0, _ => none
  | levels + 1, id =>
    match drafts[id]? with
    | none => none
    | some draft =>
      match draft.shape (nameOf drafts) with
      | .error fault => some (.error fault)
      | .ok (.leaf leaf) => some (.ok leaf.toExpr)
      | .ok (.op operator left right) =>
        match exprWithin drafts levels left with
        | some (.ok l) => (exprWithin drafts levels right).map fun r => r.map (Expr.op operator l)
        | failure => failure
      | .ok (.binding name value body) =>
        match exprWithin drafts levels value with
        | some (.ok v) => (exprWithin drafts levels body).map fun b => b.map (Expr.binding name v)
        | failure => failure

/-- The expression that the sketch stands for.  A child is always newer than its owner, so as many
levels as there are drafts are enough, and the answer for want of levels is never given. -/
def toExpr (sketch : Sketch) : Except Fault Expr :=
  (exprWithin sketch.drafts sketch.drafts.size root).getD (.error .valueless)

/-- The expression that a list of tokens draws, when at most `limit` groups may be open at once. -/
def build (limit : Nat) (tokens : List Token) : Except ParseError Expr :=
  match draw limit tokens with
  | .error error => .error error
  | .ok sketch => sketch.toExpr.mapError fun fault => .malformed fault.details

end Sketch
end PrefixCalc
