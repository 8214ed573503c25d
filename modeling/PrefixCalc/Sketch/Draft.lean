import PrefixCalc.Token

/-!
# Drafts

A draft is a node of the tree while the tree is being drawn.  It has no type yet: it may hold a
keyword, a number and a name at once, and up to three children, which are numbers of other drafts.
A child goes to the first slot that is free at that moment.  The middle slot is open only while the
draft's keyword is `let`, so a draft may lose its keyword and keep a filled middle slot.
-/

namespace PrefixCalc

/-- A node without a type. -/
structure Draft where
  keyword : Option Keyword := none
  number : Option Int32 := none
  name : Option String := none
  first : Option Nat := none
  middle : Option Nat := none
  last : Option Nat := none
  deriving DecidableEq, Repr

namespace Draft

/-- The draft with one more child, in the first free slot.  Without a free slot the child is
dropped. -/
def adopt (draft : Draft) (child : Nat) : Draft :=
  if draft.first.isNone then { draft with first := some child }
  else if draft.keyword = some .binding ∧ draft.middle.isNone then
    { draft with middle := some child }
  else if draft.last.isNone then { draft with last := some child }
  else draft

/-- The draft after a token has been written on it.  A keyword replaces the keyword.  A number or a
variable clears the keyword and replaces the payload of its own sort.  Marks leave no trace. -/
def write (draft : Draft) : Token → Draft
  | .keyword word => { draft with keyword := some word }
  | .number value => { draft with keyword := none, number := some value }
  | .var name => { draft with keyword := none, name := some name }
  | _ => draft

/-- The children of the draft, in the order of their slots. -/
def children (draft : Draft) : List Nat :=
  draft.first.toList ++ draft.middle.toList ++ draft.last.toList

@[simp]
theorem children_write (draft : Draft) (token : Token) :
    (draft.write token).children = draft.children := by
  cases token <;> rfl

/-- Taking in a child brings no other child with it. -/
theorem mem_or_eq_of_mem_children_adopt {draft : Draft} {child id : Nat} :
    id ∈ (draft.adopt child).children →
      id ∈ draft.children ∨ id = child := by
  unfold adopt
  split
  · simp only [children, Option.toList_some, List.mem_append, List.mem_singleton]
    rintro ((rfl | h) | h)
    · exact Or.inr rfl
    · exact Or.inl (Or.inl (Or.inr h))
    · exact Or.inl (Or.inr h)
  · split
    · simp only [children, Option.toList_some, List.mem_append, List.mem_singleton]
      rintro ((h | rfl) | h)
      · exact Or.inl (Or.inl (Or.inl h))
      · exact Or.inr rfl
      · exact Or.inl (Or.inr h)
    · split
      · simp only [children, Option.toList_some, List.mem_append, List.mem_singleton]
        rintro (h | rfl)
        · exact Or.inl (Or.inl h)
        · exact Or.inr rfl
      · exact Or.inl

end Draft
end PrefixCalc
