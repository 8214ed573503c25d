import PrefixCalc.Error
import PrefixCalc.Sketch.Draft

/-!
# Drawing the tree

A sketch is the tree as far as the tokens read so far have drawn it: all drafts in the order of
their making, the owners of the groups still open, and the draft that is being written on.  The
first token only lends its keyword to the root; a number or a name in that place is lost, and a mark
in that place is harmless.  Every later token takes one step:

* `(` opens a group of the current draft and moves to a new child of it,
* `,` moves to a new child of the owner of the innermost group,
* `)` closes the innermost group and moves back to its owner,
* every other token is written on the current draft.

A draft is never finished: a group may be opened again behind it, and a child that its owner has no
slot for is still written on.  Whether the finished sketch stands for an expression is decided
afterwards.
-/

namespace PrefixCalc

/-- A tree that is being drawn. -/
structure Sketch where
  /-- All drafts; the root is number zero. -/
  drafts : Array Draft
  /-- The owners of the open groups, innermost first. -/
  owners : List Nat
  /-- The draft that is being written on. -/
  cursor : Nat
  deriving DecidableEq, Repr

namespace Sketch

/-- The number of the root. -/
def root : Nat := 0

/-- The sketch after the first token. -/
def start (token : Token) : Sketch where
  drafts := #[{ keyword := token.keyword? }]
  owners := []
  cursor := root

/-- The sketch with a new empty draft, offered to `owner` as a child and made the current one. -/
def grow (sketch : Sketch) (owner : Nat) : Sketch where
  drafts := (sketch.drafts.modify owner fun draft => draft.adopt sketch.drafts.size).push {}
  owners := sketch.owners
  cursor := sketch.drafts.size

/-- The sketch after one more token, when at most `limit` groups may be open at once. -/
def step (limit : Nat) (sketch : Sketch) (token : Token) : Except ParseError Sketch :=
  match token with
  | .opening =>
    if limit ≤ sketch.owners.length then .error (.tooDeep limit)
    else .ok { sketch.grow sketch.cursor with owners := sketch.cursor :: sketch.owners }
  | .comma =>
    match sketch.owners with
    | [] => .error .unbalanced
    | owner :: _ => .ok (sketch.grow owner)
  | .closing =>
    match sketch.owners with
    | [] => .error .unbalanced
    | owner :: outer => .ok { sketch with owners := outer, cursor := owner }
  | token =>
    .ok { sketch with drafts := sketch.drafts.modify sketch.cursor fun draft => draft.write token }

/-- The sketch after the given further tokens. -/
def walk (limit : Nat) (sketch : Sketch) (tokens : List Token) : Except ParseError Sketch :=
  tokens.foldlM (step limit) sketch

@[simp]
theorem walk_nil (limit : Nat) (sketch : Sketch) : sketch.walk limit [] = .ok sketch :=
  rfl

@[simp]
theorem walk_cons (limit : Nat) (sketch : Sketch) (token : Token) (tokens : List Token) :
    sketch.walk limit (token :: tokens) =
      (sketch.step limit token).bind fun next => next.walk limit tokens :=
  rfl

/-- A walk over two lists is one walk after the other. -/
theorem walk_append (limit : Nat) (sketch : Sketch) (before after : List Token) :
    sketch.walk limit (before ++ after) =
      (sketch.walk limit before).bind fun next => next.walk limit after :=
  List.foldlM_append

@[simp]
theorem size_grow (sketch : Sketch) (owner : Nat) :
    (sketch.grow owner).drafts.size = sketch.drafts.size + 1 := by
  simp [grow]

/-- The sketch that a list of tokens draws. -/
def draw (limit : Nat) : List Token → Except ParseError Sketch
  | [] => .error .empty
  | token :: tokens => (start token).walk limit tokens

end Sketch
end PrefixCalc
