import Mathlib
import PrefixCalc.Sketch

/-!
# One step of the drawing

A step does two things that have little to do with each other: it draws, and it counts the open
groups.  `advance` draws and cannot fail, `openGroups` counts and can; `step_eq` and `walk_eq` say
that a step and a walk are both of them side by side.  So whether a walk fails, and how, is a
question about numbers alone, and what is drawn does not depend on the limit.

`step_cases` lists what a successful step can have done, `getElem?_grow` and `getElem?_mark` say
which drafts a step changes, and `walk_induction` carries a property that single steps keep over a
whole walk.
-/

namespace PrefixCalc

/-- Two computations in a row succeed if each of them does. -/
theorem bind_eq_ok_iff {ε α β : Type} {x : Except ε α} {f : α → Except ε β} {b : β} :
    x.bind f = .ok b ↔ ∃ a, x = .ok a ∧ f a = .ok b := by
  cases x <;> simp [Except.bind]

namespace Token

/-- The number of open groups after one more token, when at most `limit` may be open at once. -/
def openGroups (limit height : Nat) : Token → Except ParseError Nat
  | opening => if limit ≤ height then .error (.tooDeep limit) else .ok (height + 1)
  | comma => if height = 0 then .error .unbalanced else .ok height
  | closing => if height = 0 then .error .unbalanced else .ok (height - 1)
  | _ => .ok height

end Token

/-- Taking in a child leaves no name. -/
@[simp]
theorem Draft.name_adopt (draft : Draft) (child : Nat) :
    (draft.adopt child).name = draft.name := by
  unfold adopt
  split_ifs <;> rfl

namespace Sketch

variable {limit : Nat} {sketch next : Sketch} {token : Token} {tokens : List Token}

/-- The sketch after a token has been written on the current draft. -/
def mark (sketch : Sketch) (token : Token) : Sketch :=
  { sketch with drafts := sketch.drafts.modify sketch.cursor fun draft => draft.write token }

/-- The sketch after one more token, without a limit.  A `)` or `,` outside every group is
ignored. -/
def advance (sketch : Sketch) (token : Token) : Sketch :=
  match token with
  | .opening => { sketch.grow sketch.cursor with owners := sketch.cursor :: sketch.owners }
  | .comma =>
    match sketch.owners with
    | [] => sketch
    | owner :: _ => sketch.grow owner
  | .closing =>
    match sketch.owners with
    | [] => sketch
    | owner :: outer => { sketch with owners := outer, cursor := owner }
  | token => sketch.mark token

theorem step_eq (limit : Nat) (sketch : Sketch) (token : Token) :
    sketch.step limit token =
      (Token.openGroups limit sketch.owners.length token).map fun _ => sketch.advance token := by
  cases token with
  | keyword _ | number _ | var _ => rfl
  | opening =>
    simp only [step, Token.openGroups]
    split <;> rfl
  | comma | closing =>
    cases hOwners : sketch.owners <;> simp [step, advance, Token.openGroups, hOwners, Except.map]

/-- Drawing keeps the count. -/
theorem length_owners_advance {height : Nat}
    (h : Token.openGroups limit sketch.owners.length token = .ok height) :
    (sketch.advance token).owners.length = height := by
  cases token with
  | keyword _ | number _ | var _ => exact Except.ok.inj h
  | opening =>
    simp only [Token.openGroups] at h
    split at h
    · exact absurd h (by simp)
    · exact Except.ok.inj h
  | comma | closing =>
    cases hOwners : sketch.owners with
    | nil => simp [Token.openGroups, hOwners] at h
    | cons owner outer => simpa [advance, grow, Token.openGroups, hOwners] using h

theorem walk_eq (limit : Nat) (sketch : Sketch) (tokens : List Token) :
    sketch.walk limit tokens =
      (tokens.foldlM (Token.openGroups limit) sketch.owners.length).map
        fun _ => tokens.foldl advance sketch := by
  induction tokens generalizing sketch with
  | nil => rfl
  | cons token tokens ih =>
    rw [walk_cons, step_eq, List.foldlM_cons]
    -- The next step counts from the height that this one leaves, which is the height of its sketch.
    cases hCount : Token.openGroups limit sketch.owners.length token with
    | error error => rfl
    | ok height =>
      simp only [Except.map, Except.bind, ih, length_owners_advance hCount]
      rfl

/-- Everything that a successful step can have done. -/
theorem step_cases (h : sketch.step limit token = .ok next) :
    (token = .opening ∧ sketch.owners.length < limit ∧
      next = { sketch.grow sketch.cursor with owners := sketch.cursor :: sketch.owners }) ∨
    (token = .comma ∧ ∃ owner outer, sketch.owners = owner :: outer ∧ next = sketch.grow owner) ∨
    (token = .closing ∧ ∃ owner outer, sketch.owners = owner :: outer ∧
      next = { sketch with owners := outer, cursor := owner }) ∨
    next = sketch.mark token := by
  cases token with
  | keyword _ | number _ | var _ =>
    exact Or.inr (Or.inr (Or.inr (Except.ok.inj h).symm))
  | opening =>
    simp only [step] at h
    split at h
    · exact absurd h (by simp)
    · next hRoom => exact Or.inl ⟨rfl, Nat.lt_of_not_le hRoom, (Except.ok.inj h).symm⟩
  | comma =>
    cases hOwners : sketch.owners with
    | nil => simp [step, hOwners] at h
    | cons owner outer =>
      simp only [step, hOwners] at h
      exact Or.inr (Or.inl ⟨rfl, owner, outer, rfl, (Except.ok.inj h).symm⟩)
  | closing =>
    cases hOwners : sketch.owners with
    | nil => simp [step, hOwners] at h
    | cons owner outer =>
      simp only [step, hOwners] at h
      exact Or.inr (Or.inr (Or.inl ⟨rfl, owner, outer, rfl, (Except.ok.inj h).symm⟩))

/-- A property of sketches that every step keeps holds after a walk if it holds before. -/
theorem walk_induction {motive : Sketch → Prop}
    (hStep : ∀ {sketch next : Sketch} {token : Token}, token ∈ tokens → motive sketch →
      sketch.step limit token = .ok next → motive next)
    (hStart : motive sketch) (h : sketch.walk limit tokens = .ok next) : motive next := by
  induction tokens generalizing sketch with
  | nil =>
    cases h
    exact hStart
  | cons token tokens ih =>
    rw [walk_cons] at h
    obtain ⟨middle, hFirst, hRest⟩ := bind_eq_ok_iff.1 h
    refine ih (fun hMem => hStep (List.mem_cons_of_mem token hMem)) ?_ hRest
    exact hStep List.mem_cons_self hStart hFirst

/-- What is drawn comes from a walk behind a first token. -/
theorem exists_walk_of_draw (h : draw limit tokens = .ok sketch) :
    ∃ first rest, tokens = first :: rest ∧ (start first).walk limit rest = .ok sketch := by
  cases tokens with
  | nil => exact absurd h (by simp [draw])
  | cons first rest => exact ⟨first, rest, rfl, h⟩

/-! ## The drafts after a step -/

@[simp]
theorem size_mark (sketch : Sketch) (token : Token) :
    (sketch.mark token).drafts.size = sketch.drafts.size := by
  simp [mark]

theorem getElem?_grow (sketch : Sketch) (owner id : Nat) :
    (sketch.grow owner).drafts[id]? =
      if id = sketch.drafts.size then some {}
      else if owner = id then sketch.drafts[id]?.map fun draft => draft.adopt sketch.drafts.size
      else sketch.drafts[id]? := by
  rw [grow, Array.getElem?_push, Array.size_modify, Array.getElem?_modify]

theorem getElem?_mark (sketch : Sketch) (token : Token) (id : Nat) :
    (sketch.mark token).drafts[id]? =
      if sketch.cursor = id then sketch.drafts[id]?.map fun draft => draft.write token
      else sketch.drafts[id]? := by
  rw [mark, Array.getElem?_modify]

/-- Where the drafts of a grown sketch come from. -/
theorem getElem?_grow_cases {owner id : Nat} {draft : Draft}
    (h : (sketch.grow owner).drafts[id]? = some draft) :
    (id = sketch.drafts.size ∧ draft = {}) ∨
    (id = owner ∧ ∃ old, sketch.drafts[id]? = some old ∧
      draft = old.adopt sketch.drafts.size) ∨
    sketch.drafts[id]? = some draft := by
  rw [getElem?_grow] at h
  split_ifs at h with hNew hOwner
  · exact Or.inl ⟨hNew, (Option.some.inj h).symm⟩
  · obtain ⟨old, hOld, rfl⟩ := Option.map_eq_some_iff.1 h
    exact Or.inr (Or.inl ⟨hOwner.symm, old, hOld, rfl⟩)
  · exact Or.inr (Or.inr h)

/-- Where the drafts of a sketch that has been written on come from. -/
theorem getElem?_mark_cases {id : Nat} {draft : Draft}
    (h : (sketch.mark token).drafts[id]? = some draft) :
    ∃ old, sketch.drafts[id]? = some old ∧ (draft = old ∨ draft = old.write token) := by
  rw [getElem?_mark] at h
  split_ifs at h with hCursor
  · obtain ⟨old, hOld, rfl⟩ := Option.map_eq_some_iff.1 h
    exact ⟨old, hOld, Or.inr rfl⟩
  · exact ⟨draft, h, Or.inl rfl⟩

end Sketch
end PrefixCalc
