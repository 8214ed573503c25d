import PrefixCalc.Proofs.Sketch.Order

/-!
# A sketch is a forest

A draft is offered to one owner, once, at the moment of its making.  So no draft is in two slots
(`Unshared`), whatever the tokens: a group that is opened again makes no difference, and neither does
a child that finds no free slot.  As a child is newer than its owner besides, going up from a draft
there is one way only, and it ends.  So the trees under two children of one draft have nothing in
common (`Unshared.eq_of_under`).
-/

namespace PrefixCalc
namespace Draft

/-- A child comes into one slot, or it is dropped. -/
theorem children_adopt (draft : Draft) (child : Nat) :
    (draft.adopt child).children = draft.children ∨
      (draft.adopt child).children.Perm (child :: draft.children) := by
  unfold adopt
  split_ifs with hFirst hMiddle hLast
  · have hNone : draft.first = none := Option.isNone_iff_eq_none.1 hFirst
    right
    simp [children, hNone]
  · have hNone : draft.middle = none := Option.isNone_iff_eq_none.1 hMiddle.2
    right
    simp [children, hNone]
  · have hNone : draft.last = none := Option.isNone_iff_eq_none.1 hLast
    right
    have hEnd := List.perm_append_singleton child (draft.first.toList ++ draft.middle.toList)
    simpa [children, hNone] using hEnd
  · exact Or.inl rfl

end Draft

namespace Sketch

variable {limit id child other : Nat} {sketch next : Sketch} {token : Token} {tokens : List Token}

/-- Draft number `child` is in a slot of draft number `id`. -/
def Owns (drafts : Array Draft) (id child : Nat) : Prop :=
  ∃ draft : Draft, drafts[id]? = some draft ∧ child ∈ draft.children

/-- No number is in two slots, be it of two drafts or of one. -/
structure Unshared (drafts : Array Draft) : Prop where
  owner_eq : ∀ id other child, Owns drafts id child → Owns drafts other child → id = other
  nodup_children : ∀ (id : Nat) (draft : Draft), drafts[id]? = some draft → draft.children.Nodup

/-! ## One step -/

theorem Ordered.lt_of_owns (h : sketch.Ordered) (hOwns : Owns sketch.drafts id child) :
    id < child ∧ child < sketch.drafts.size := by
  obtain ⟨draft, hDraft, hChild⟩ := hOwns
  exact h.child_lt id draft child hDraft hChild

/-- A new draft brings one slot with it, the one that its owner has for it. -/
theorem owns_grow {owner : Nat} (h : Owns (sketch.grow owner).drafts id child) :
    Owns sketch.drafts id child ∨ (id = owner ∧ child = sketch.drafts.size) := by
  obtain ⟨draft, hDraft, hChild⟩ := h
  rcases getElem?_grow_cases hDraft with ⟨-, rfl⟩ | ⟨rfl, old, hOld, rfl⟩ | hOld
  · exact absurd hChild (by simp [Draft.children])
  · rcases Draft.mem_or_eq_of_mem_children_adopt hChild with hBefore | hNew
    · exact Or.inl ⟨old, hOld, hBefore⟩
    · exact Or.inr ⟨rfl, hNew⟩
  · exact Or.inl ⟨draft, hOld, hChild⟩

theorem owns_mark (h : Owns (sketch.mark token).drafts id child) : Owns sketch.drafts id child := by
  obtain ⟨draft, hDraft, hChild⟩ := h
  obtain ⟨old, hOld, rfl | rfl⟩ := getElem?_mark_cases hDraft
  · exact ⟨draft, hOld, hChild⟩
  · exact ⟨old, hOld, by rwa [Draft.children_write] at hChild⟩

theorem unshared_start (first : Token) : Unshared (start first).drafts where
  owner_eq := by
    intro id other child hId _
    have hOrder := (ordered_start first).lt_of_owns hId
    have hSize : (start first).drafts.size = 1 := rfl
    omega
  nodup_children := by
    intro id draft hDraft
    obtain ⟨hLt, rfl⟩ := Array.getElem?_eq_some_iff.1 hDraft
    obtain rfl : id = 0 := Nat.lt_one_iff.1 hLt
    simp [start, Draft.children]

theorem Unshared.grow (h : Unshared sketch.drafts) (hOrdered : sketch.Ordered) (owner : Nat) :
    Unshared (sketch.grow owner).drafts where
  owner_eq := by
    intro id other child hId hOther
    rcases owns_grow hId with hId | ⟨rfl, rfl⟩
    · rcases owns_grow hOther with hOther | ⟨-, rfl⟩
      · exact h.owner_eq id other child hId hOther
      · exact absurd (hOrdered.lt_of_owns hId).2 (Nat.lt_irrefl _)
    · rcases owns_grow hOther with hOther | ⟨rfl, -⟩
      · exact absurd (hOrdered.lt_of_owns hOther).2 (Nat.lt_irrefl _)
      · rfl
  nodup_children := by
    intro id draft hDraft
    rcases getElem?_grow_cases hDraft with ⟨-, rfl⟩ | ⟨rfl, old, hOld, rfl⟩ | hOld
    · simp [Draft.children]
    · have hNew : sketch.drafts.size ∉ old.children := fun hMem =>
        Nat.lt_irrefl _ (hOrdered.child_lt id old _ hOld hMem).2
      rcases old.children_adopt sketch.drafts.size with hSame | hPerm
      · rw [hSame]
        exact h.nodup_children id old hOld
      · exact hPerm.nodup_iff.2 (List.nodup_cons.2 ⟨hNew, h.nodup_children id old hOld⟩)
    · exact h.nodup_children id draft hOld

theorem Unshared.mark (h : Unshared sketch.drafts) (token : Token) :
    Unshared (sketch.mark token).drafts where
  owner_eq := fun id other child hId hOther =>
    h.owner_eq id other child (owns_mark hId) (owns_mark hOther)
  nodup_children := by
    intro id draft hDraft
    obtain ⟨old, hOld, rfl | rfl⟩ := getElem?_mark_cases hDraft
    · exact h.nodup_children id draft hOld
    · rw [Draft.children_write]
      exact h.nodup_children id old hOld

theorem Unshared.step (h : Unshared sketch.drafts) (hOrdered : sketch.Ordered)
    (hStep : sketch.step limit token = .ok next) : Unshared next.drafts := by
  rcases step_cases hStep with ⟨-, -, rfl⟩ | ⟨-, owner, -, -, rfl⟩ | ⟨-, -, -, -, rfl⟩ | rfl
  · exact h.grow hOrdered sketch.cursor
  · exact h.grow hOrdered owner
  · exact h
  · exact h.mark token

theorem unshared_of_walk (first : Token) (hWalk : (start first).walk limit tokens = .ok next) :
    next.Ordered ∧ Unshared next.drafts := by
  refine walk_induction (motive := fun sketch => sketch.Ordered ∧ Unshared sketch.drafts)
    ?_ ⟨ordered_start first, unshared_start first⟩ hWalk
  rintro sketch next token - ⟨hOrdered, hUnshared⟩ hStep
  exact ⟨hOrdered.step hStep, hUnshared.step hOrdered hStep⟩

/-! ## Trees -/

/-- Draft number `other` is draft number `id` or somewhere below it. -/
def Under (drafts : Array Draft) : Nat → Nat → Prop :=
  Relation.ReflTransGen (Owns drafts)

theorem Ordered.le_of_under (h : sketch.Ordered) (hUnder : Under sketch.drafts id other) :
    id ≤ other := by
  induction hUnder with
  | refl => exact Nat.le_refl id
  | tail _ hOwns ih => exact ih.trans (h.lt_of_owns hOwns).1.le

/-- A draft is not below its own child. -/
theorem Ordered.not_under_of_owns (h : sketch.Ordered) (hOwns : Owns sketch.drafts id child) :
    ¬ Under sketch.drafts child id := by
  intro hUnder
  have hLe := h.le_of_under hUnder
  have hLt := (h.lt_of_owns hOwns).1
  omega

/-- No child of a draft is below another. -/
theorem Unshared.eq_of_under_child (h : Unshared sketch.drafts) (hOrdered : sketch.Ordered)
    (hChild : Owns sketch.drafts id child) (hOther : Owns sketch.drafts id other)
    (hUnder : Under sketch.drafts child other) : child = other := by
  rcases hUnder.cases_tail with hSame | ⟨owner, hOwner, hOwns⟩
  · exact hSame.symm
  · -- The owner of `other` is `id`, and `id` is not below its child.
    obtain rfl : owner = id := h.owner_eq owner id other hOwns hOther
    exact absurd hOwner (hOrdered.not_under_of_owns hChild)

/-- The trees under two children of one draft have nothing in common. -/
theorem Unshared.eq_of_under {place : Nat} (h : Unshared sketch.drafts)
    (hOrdered : sketch.Ordered) (hChild : Owns sketch.drafts id child)
    (hOther : Owns sketch.drafts id other) (hPlace : Under sketch.drafts child place)
    (hPlaceOther : Under sketch.drafts other place) : child = other := by
  -- Going up from `place` there is one way only, so it comes to one of the two before the other.
  have hUnique : Relator.RightUnique (Function.swap (Owns sketch.drafts)) :=
    fun place owner owner' hOwns hOwns' => h.owner_eq owner owner' place hOwns hOwns'
  rcases Relation.ReflTransGen.total_of_right_unique hUnique hPlace.swap hPlaceOther.swap with
    hUp | hUp
  · have hUnder : Under sketch.drafts other child := Relation.reflTransGen_swap.1 hUp
    exact (h.eq_of_under_child hOrdered hOther hChild hUnder).symm
  · have hUnder : Under sketch.drafts child other := Relation.reflTransGen_swap.1 hUp
    exact h.eq_of_under_child hOrdered hChild hOther hUnder

end Sketch
end PrefixCalc
