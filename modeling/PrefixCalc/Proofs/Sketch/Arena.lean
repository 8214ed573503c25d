import PrefixCalc.Proofs.Sketch.Depth
import PrefixCalc.Proofs.Sketch.Forest

/-!
# Numbers in range

A sketch refers to its drafts by number, so each use of a number could miss.  `drawChecked` is the
drawing that looks whether the number is one of a draft before each use and gives up if it is not.
It never does, whatever the tokens, and draws the same (`drawChecked_eq`).

What this rests on holds at every moment of a walk (`IsForest`): the numbers in use are numbers of
drafts, the open groups ascend towards the cursor, and the slots of all drafts together make a
forest, filled from the first slot on.
-/

namespace PrefixCalc
namespace Draft

/-- A draft to which a child has been offered has a first child. -/
theorem isSome_first_adopt (draft : Draft) (child : Nat) : (draft.adopt child).first.isSome := by
  cases hFirst : draft.first with
  | none => simp [adopt, hFirst]
  | some first =>
    -- No branch gives a first child up.
    unfold adopt
    split_ifs <;> simp [hFirst]

/-- The middle and the last slot are filled only behind the first one. -/
def FilledInOrder (draft : Draft) : Prop :=
  draft.middle.isSome ∨ draft.last.isSome → draft.first.isSome

theorem filledInOrder_adopt (draft : Draft) (child : Nat) : (draft.adopt child).FilledInOrder :=
  fun _ => draft.isSome_first_adopt child

theorem FilledInOrder.write {draft : Draft} (h : draft.FilledInOrder) (token : Token) :
    (draft.write token).FilledInOrder := by
  cases token <;> exact h

end Draft

namespace Sketch

variable {limit owner : Nat} {sketch next : Sketch} {token : Token} {tokens : List Token}

/-! ## Every moment of a walk -/

/-- What holds of a sketch at every moment of a walk. -/
structure IsForest (sketch : Sketch) : Prop extends Ordered sketch, Unshared sketch.drafts where
  /-- The owners of the open groups from the outermost on, and behind them the cursor. -/
  ascending : (sketch.owners.reverse ++ [sketch.cursor]).Pairwise (· < ·)
  root_not_owned : ∀ id, ¬ Owns sketch.drafts id root
  filledInOrder : ∀ (id : Nat) (draft : Draft), sketch.drafts[id]? = some draft →
    draft.FilledInOrder

/-- Innermost first, as a sketch has its owners, the numbers descend. -/
theorem ascending_iff : (sketch.owners.reverse ++ [sketch.cursor]).Pairwise (· < ·) ↔
    (sketch.cursor :: sketch.owners).Pairwise (· > ·) := by
  rw [← List.reverse_cons, List.pairwise_reverse]

/-- A number that is newer than its owner is not the root's. -/
theorem Ordered.not_owns_root (h : sketch.Ordered) (id : Nat) : ¬ Owns sketch.drafts id root :=
  fun hOwns => Nat.not_lt_zero id (h.lt_of_owns hOwns).1

theorem isForest_start (first : Token) : (start first).IsForest where
  toOrdered := ordered_start first
  toUnshared := unshared_start first
  ascending := List.pairwise_singleton _ _
  root_not_owned := (ordered_start first).not_owns_root
  filledInOrder := by
    intro id draft hDraft
    obtain ⟨hLt, rfl⟩ := Array.getElem?_eq_some_iff.1 hDraft
    obtain rfl : id = 0 := Nat.lt_one_iff.1 hLt
    simp [start, Draft.FilledInOrder]

/-- A new draft is newer than the cursor and all owners. -/
theorem IsForest.lt_size (h : sketch.IsForest) :
    ∀ id ∈ sketch.cursor :: sketch.owners, id < sketch.drafts.size := by
  intro id hMem
  rcases List.mem_cons.1 hMem with rfl | hOwner
  · exact h.cursor_lt
  · exact h.owner_lt id hOwner

theorem IsForest.descending_step (h : sketch.IsForest)
    (hStep : sketch.step limit token = .ok next) :
    (next.cursor :: next.owners).Pairwise (· > ·) := by
  have hBefore := ascending_iff.1 h.ascending
  rcases step_cases hStep with ⟨-, -, rfl⟩ | ⟨-, -, -, -, rfl⟩ | ⟨-, owner, outer, hOwners, rfl⟩ |
    rfl
  · exact List.pairwise_cons.2 ⟨h.lt_size, hBefore⟩
  · exact List.pairwise_cons.2 ⟨h.owner_lt, hBefore.of_cons⟩
  · rw [hOwners] at hBefore
    exact hBefore.of_cons
  · exact hBefore

theorem IsForest.filledInOrder_step (h : sketch.IsForest)
    (hStep : sketch.step limit token = .ok next) (id : Nat) (draft : Draft)
    (hDraft : next.drafts[id]? = some draft) : draft.FilledInOrder := by
  have hGrow : ∀ owner, (sketch.grow owner).drafts[id]? = some draft → draft.FilledInOrder := by
    intro owner hGrown
    rcases getElem?_grow_cases hGrown with ⟨-, rfl⟩ | ⟨-, old, -, rfl⟩ | hOld
    · simp [Draft.FilledInOrder]
    · exact old.filledInOrder_adopt sketch.drafts.size
    · exact h.filledInOrder id draft hOld
  rcases step_cases hStep with ⟨-, -, rfl⟩ | ⟨-, owner, -, -, rfl⟩ | ⟨-, owner, outer, -, rfl⟩ |
    rfl
  · exact hGrow sketch.cursor hDraft
  · exact hGrow owner hDraft
  · exact h.filledInOrder id draft hDraft
  · obtain ⟨old, hOld, rfl | rfl⟩ := getElem?_mark_cases hDraft
    · exact h.filledInOrder id draft hOld
    · exact (h.filledInOrder id old hOld).write token

theorem IsForest.step (h : sketch.IsForest) (hStep : sketch.step limit token = .ok next) :
    next.IsForest where
  toOrdered := h.toOrdered.step hStep
  toUnshared := h.toUnshared.step h.toOrdered hStep
  ascending := ascending_iff.2 (h.descending_step hStep)
  root_not_owned := (h.toOrdered.step hStep).not_owns_root
  filledInOrder := h.filledInOrder_step hStep

theorem isForest_of_draw (hDraw : draw limit tokens = .ok sketch) : sketch.IsForest := by
  obtain ⟨first, rest, -, hWalk⟩ := exists_walk_of_draw hDraw
  exact walk_induction (fun _ hForest hStep => hForest.step hStep) (isForest_start first) hWalk

/-! ## Drawing with a look at every number -/

/-- The sketch with a new draft, offered to `owner` as a child, if `owner` is the number of a draft.
The new draft is there before it is offered. -/
def growChecked (sketch : Sketch) (owner : Nat) : Option Sketch :=
  let drafts := sketch.drafts.push {}
  if h : owner < drafts.size then
    some { sketch with
      drafts := drafts.set owner (drafts[owner].adopt sketch.drafts.size) h
      cursor := sketch.drafts.size }
  else none

/-- The sketch after a token has been written on the current draft, if there is one. -/
def markChecked (sketch : Sketch) (token : Token) : Option Sketch :=
  if h : sketch.cursor < sketch.drafts.size then
    some { sketch with
      drafts := sketch.drafts.set sketch.cursor (sketch.drafts[sketch.cursor].write token) h }
  else none

/-- The sketch after one more token.  The answer is `none` when a number is used that is no number of
a draft. -/
def stepChecked (limit : Nat) (sketch : Sketch) (token : Token) :
    Option (Except ParseError Sketch) :=
  match token with
  | .opening =>
    if limit ≤ sketch.owners.length then some (.error (.tooDeep limit))
    else (sketch.growChecked sketch.cursor).map fun next =>
      .ok { next with owners := sketch.cursor :: sketch.owners }
  | .comma =>
    match sketch.owners with
    | [] => some (.error .unbalanced)
    | owner :: _ => (sketch.growChecked owner).map .ok
  | .closing =>
    match sketch.owners with
    | [] => some (.error .unbalanced)
    | owner :: outer => some (.ok { sketch with owners := outer, cursor := owner })
  | token => (sketch.markChecked token).map .ok

/-- The sketch after the given further tokens.  The walk stops at the first error, and at the first
number that is no number of a draft. -/
def walkChecked (limit : Nat) (sketch : Sketch) : List Token → Option (Except ParseError Sketch)
  | [] => some (.ok sketch)
  | token :: tokens =>
    match sketch.stepChecked limit token with
    | some (.ok next) => next.walkChecked limit tokens
    | stopped => stopped

/-- The sketch that a list of tokens draws, with a look at every number before it is used. -/
def drawChecked (limit : Nat) : List Token → Option (Except ParseError Sketch)
  | [] => some (.error .empty)
  | token :: tokens => (start token).walkChecked limit tokens

theorem growChecked_eq (hOwner : owner < sketch.drafts.size) :
    sketch.growChecked owner = some (sketch.grow owner) := by
  have hPushed : owner < (sketch.drafts.push {}).size := by
    rw [Array.size_push]
    exact Nat.lt_succ_of_lt hOwner
  rw [growChecked, dif_pos hPushed, grow]
  congr 2
  apply Array.ext_getElem?
  intro id
  rw [Array.getElem?_set, Array.getElem?_push, Array.getElem?_push, Array.getElem?_modify,
    Array.size_modify, Array.getElem_push_lt hOwner]
  split_ifs with hId hNew
  · omega
  · simp [← hId, hOwner]
  · rfl
  · rfl

theorem markChecked_eq (hCursor : sketch.cursor < sketch.drafts.size) (token : Token) :
    sketch.markChecked token = some (sketch.mark token) := by
  rw [markChecked, dif_pos hCursor, mark]
  congr 2
  apply Array.ext_getElem?
  intro id
  rw [Array.getElem?_set, Array.getElem?_modify]
  split_ifs with hId
  · simp [← hId, hCursor]
  · rfl

/-- In a forest no number misses. -/
theorem IsForest.stepChecked_eq (h : sketch.IsForest) (limit : Nat) (token : Token) :
    sketch.stepChecked limit token = some (sketch.step limit token) := by
  cases token with
  | keyword _ | number _ | var _ =>
    simp only [stepChecked, markChecked_eq h.cursor_lt, Option.map_some]
    rfl
  | opening =>
    rw [stepChecked, Sketch.step, growChecked_eq h.cursor_lt]
    split <;> rfl
  | comma =>
    rw [stepChecked, Sketch.step]
    cases hOwners : sketch.owners with
    | nil => rfl
    | cons owner outer =>
      have hOwner : owner < sketch.drafts.size := h.owner_lt owner (by simp [hOwners])
      simp only [growChecked_eq hOwner, Option.map_some]
  | closing =>
    rw [stepChecked, Sketch.step]
    cases sketch.owners <;> rfl

theorem IsForest.walkChecked_eq (h : sketch.IsForest) (limit : Nat) (tokens : List Token) :
    sketch.walkChecked limit tokens = some (sketch.walk limit tokens) := by
  induction tokens generalizing sketch with
  | nil => rfl
  | cons token tokens ih =>
    rw [walkChecked, h.stepChecked_eq, walk_cons]
    cases hStep : sketch.step limit token with
    | error error => rfl
    | ok next => exact ih (h.step hStep)

/-- Whatever the tokens, no number misses. -/
theorem drawChecked_eq (limit : Nat) (tokens : List Token) :
    drawChecked limit tokens = some (draw limit tokens) := by
  cases tokens with
  | nil => rfl
  | cons first rest => exact (isForest_start first).walkChecked_eq limit rest

end Sketch
end PrefixCalc
