import PrefixCalc.Proofs.Sketch.Descent
import PrefixCalc.Proofs.Sketch.Step

/-!
# Order and depth of a sketch

Two invariants of every walk, whatever the tokens.

* `Ordered`: the numbers in a sketch are numbers of drafts, and a child is newer than its owner.  So
  a sketch has no cycles, and as many levels as there are drafts are enough to read it.
* `Leveled`: each draft was made while a certain number of groups was open, its level.  A child is
  one level below its owner, whether its slot was filled at once or the group was opened again
  later, and the owner of the `n`th open group is on level `n`.  So the limit on open groups bounds
  the depth of what is read.
-/

namespace PrefixCalc
namespace Sketch

variable {limit : Nat} {sketch next : Sketch} {token : Token} {tokens : List Token}

/-- The numbers in a sketch are numbers of drafts, and children are newer than their owners. -/
structure Ordered (sketch : Sketch) : Prop where
  cursor_lt : sketch.cursor < sketch.drafts.size
  owner_lt : ∀ owner ∈ sketch.owners, owner < sketch.drafts.size
  child_lt : ∀ id draft child, sketch.drafts[id]? = some draft → child ∈ draft.children →
    id < child ∧ child < sketch.drafts.size

theorem ordered_start (first : Token) : (start first).Ordered where
  cursor_lt := Nat.zero_lt_one
  owner_lt := by simp [start]
  child_lt := by
    intro id draft child hDraft hChild
    obtain rfl : id = 0 := by
      have hLt := (Array.getElem?_eq_some_iff.1 hDraft).1
      exact Nat.lt_one_iff.1 hLt
    obtain rfl : ({ keyword := first.keyword? } : Draft) = draft := by simpa [start] using hDraft
    exact absurd hChild (by simp [Draft.children])

/-- A new child of any draft keeps the order. -/
theorem Ordered.grow {owner : Nat} (h : sketch.Ordered) (hOwner : owner < sketch.drafts.size) :
    (sketch.grow owner).Ordered where
  cursor_lt := by
    rw [size_grow]
    exact Nat.lt_succ_self _
  owner_lt := by
    intro other hOther
    rw [size_grow]
    exact Nat.lt_succ_of_lt (h.owner_lt other hOther)
  child_lt := by
    intro id draft child hDraft hChild
    rw [size_grow]
    rcases getElem?_grow_cases hDraft with ⟨-, rfl⟩ | ⟨rfl, old, hOld, rfl⟩ | hOld
    · exact absurd hChild (by simp [Draft.children])
    · rcases Draft.mem_or_eq_of_mem_children_adopt hChild with hBefore | rfl
      · have hOrder := h.child_lt id old child hOld hBefore
        omega
      · omega
    · have hOrder := h.child_lt id draft child hOld hChild
      omega

/-- Writing on a draft keeps the order. -/
theorem Ordered.mark (h : sketch.Ordered) (token : Token) : (sketch.mark token).Ordered where
  cursor_lt := by
    rw [size_mark]
    exact h.cursor_lt
  owner_lt := by
    rw [size_mark]
    exact h.owner_lt
  child_lt := by
    intro id draft child hDraft hChild
    rw [size_mark]
    obtain ⟨old, hOld, rfl | rfl⟩ := getElem?_mark_cases hDraft
    · exact h.child_lt id draft child hOld hChild
    · exact h.child_lt id old child hOld (by rwa [Draft.children_write] at hChild)

theorem Ordered.step (h : sketch.Ordered) (hStep : sketch.step limit token = .ok next) :
    next.Ordered := by
  rcases step_cases hStep with ⟨-, -, rfl⟩ | ⟨-, owner, outer, hOwners, rfl⟩ |
    ⟨-, owner, outer, hOwners, rfl⟩ | rfl
  · -- A group is opened: its owner is the draft that was current.
    obtain ⟨hCursor, hOwner, hChild⟩ := h.grow h.cursor_lt
    refine ⟨hCursor, ?_, hChild⟩
    intro owner hMem
    rcases List.mem_cons.1 hMem with rfl | hMem
    · exact Nat.lt_of_lt_of_le h.cursor_lt (by simp [size_grow])
    · exact hOwner owner hMem
  · exact h.grow (h.owner_lt owner (by simp [hOwners]))
  · -- A group is closed: its owner is current again.
    refine ⟨h.owner_lt owner (by simp [hOwners]), ?_, h.child_lt⟩
    intro other hMem
    exact h.owner_lt other (by simp [hOwners, show other ∈ outer from hMem])
  · exact h.mark token

theorem Ordered.walk (h : sketch.Ordered) (hWalk : sketch.walk limit tokens = .ok next) :
    next.Ordered :=
  walk_induction (fun _ hOrdered hStep => hOrdered.step hStep) h hWalk

/-- As many levels as there are drafts are enough to read an ordered sketch. -/
theorem Ordered.exprWithin_size (h : sketch.Ordered) :
    exprWithin sketch.drafts sketch.drafts.size root = some sketch.toExpr := by
  have hRoot : root < sketch.drafts.size := Nat.lt_of_le_of_lt (Nat.zero_le _) h.cursor_lt
  -- A child is newer than its owner, so the rank of a draft is the number of newer ones.
  have hSome : (exprWithin sketch.drafts sketch.drafts.size root).isSome := by
    refine isSome_exprWithin (fun id => sketch.drafts.size - 1 - id) ?_ hRoot (by omega)
    intro id draft child hDraft hChild
    have hOrder := h.child_lt id draft child hDraft hChild
    constructor
    · show sketch.drafts.size - 1 - child < sketch.drafts.size - 1 - id
      omega
    · exact hOrder.2
  obtain ⟨outcome, hOutcome⟩ := Option.isSome_iff_exists.1 hSome
  rw [toExpr, hOutcome]
  rfl

/-- An ordered sketch that some number of levels reads is read to the same effect by all of its
drafts. -/
theorem Ordered.toExpr_eq {levels : Nat} {outcome : Except Fault Expr} (h : sketch.Ordered)
    (hRead : exprWithin sketch.drafts levels root = some outcome) : sketch.toExpr = outcome := by
  have hSame : some outcome = some sketch.toExpr := by
    rw [← exprWithin_mono (Nat.le_max_left levels sketch.drafts.size) hRead]
    exact exprWithin_mono (Nat.le_max_right levels sketch.drafts.size) h.exprWithin_size
  exact (Option.some.inj hSame).symm

/-- `level` is the number of groups that were open when a draft was made: it grows by one from owner
to child and never exceeds the limit. -/
structure Leveled (level : Nat → Nat) (limit : Nat) (sketch : Sketch) : Prop where
  root_eq : level root = 0
  cursor_eq : level sketch.cursor = sketch.owners.length
  owner_eq : ∀ owner outer, owner :: outer <:+ sketch.owners → level owner = outer.length
  child_eq : ∀ id draft child, sketch.drafts[id]? = some draft → child ∈ draft.children →
    level child = level id + 1
  le_limit : ∀ id, id < sketch.drafts.size → level id ≤ limit

theorem leveled_start (limit : Nat) (first : Token) : (start first).Leveled (fun _ => 0) limit where
  root_eq := rfl
  cursor_eq := rfl
  owner_eq := by
    intro owner outer hSuffix
    exact absurd hSuffix (by simp [start])
  child_eq := by
    intro id draft child hDraft hChild
    have hOrder := (ordered_start first).child_lt id draft child hDraft hChild
    have hSize : (start first).drafts.size = 1 := rfl
    omega
  le_limit := fun _ _ => Nat.zero_le limit

/-- The levels after a new draft has been made while `height` groups are open. -/
def raise (level : Nat → Nat) (size height : Nat) : Nat → Nat :=
  fun id => if id = size then height else level id

/-- A new child of the innermost owner keeps the levels. -/
theorem Leveled.grow {level : Nat → Nat} {owner : Nat} (owners : List Nat)
    (hOrdered : sketch.Ordered) (h : sketch.Leveled level limit)
    (hOwner : owner < sketch.drafts.size) (hHeight : owners.length = level owner + 1)
    (hOwners : ∀ other outer, other :: outer <:+ owners →
      other < sketch.drafts.size ∧ level other = outer.length)
    (hRoom : owners.length ≤ limit) :
    ({ sketch.grow owner with owners := owners } : Sketch).Leveled
      (raise level sketch.drafts.size owners.length) limit where
  root_eq := by
    have hRoot : root < sketch.drafts.size := Nat.lt_of_le_of_lt (Nat.zero_le _) hOrdered.cursor_lt
    rw [raise, if_neg (Nat.ne_of_lt hRoot), h.root_eq]
  cursor_eq := if_pos rfl
  owner_eq := by
    intro other outer hSuffix
    obtain ⟨hLt, hLevel⟩ := hOwners other outer hSuffix
    rw [raise, if_neg (Nat.ne_of_lt hLt), hLevel]
  child_eq := by
    intro id draft child hDraft hChild
    rcases getElem?_grow_cases hDraft with ⟨-, rfl⟩ | ⟨rfl, old, hOld, rfl⟩ | hOld
    · exact absurd hChild (by simp [Draft.children])
    · rcases Draft.mem_or_eq_of_mem_children_adopt hChild with hBefore | rfl
      · have hOrder := hOrdered.child_lt id old child hOld hBefore
        rw [raise, if_neg (by omega), raise, if_neg (by omega), h.child_eq id old child hOld hBefore]
      · rw [raise, if_pos rfl, raise, if_neg (Nat.ne_of_lt hOwner), hHeight]
    · have hOrder := hOrdered.child_lt id draft child hOld hChild
      rw [raise, if_neg (by omega), raise, if_neg (by omega), h.child_eq id draft child hOld hChild]
  le_limit := by
    intro id hId
    rw [raise]
    split
    · exact hRoom
    · next hNew =>
      have hSize : (sketch.grow owner).drafts.size = sketch.drafts.size + 1 := size_grow sketch owner
      have hLt : id < sketch.drafts.size + 1 := hSize ▸ hId
      exact h.le_limit id (by omega)

theorem Leveled.mark {level : Nat → Nat} (h : sketch.Leveled level limit) (token : Token) :
    (sketch.mark token).Leveled level limit where
  root_eq := h.root_eq
  cursor_eq := h.cursor_eq
  owner_eq := h.owner_eq
  child_eq := by
    intro id draft child hDraft hChild
    obtain ⟨old, hOld, rfl | rfl⟩ := getElem?_mark_cases hDraft
    · exact h.child_eq id draft child hOld hChild
    · exact h.child_eq id old child hOld (by rwa [Draft.children_write] at hChild)
  le_limit := by
    rw [size_mark]
    exact h.le_limit

/-- Every step that the limit allows keeps the levels of the drafts there are. -/
theorem Leveled.step {level : Nat → Nat} (hOrdered : sketch.Ordered)
    (h : sketch.Leveled level limit) (hStep : sketch.step limit token = .ok next) :
    ∃ level, next.Leveled level limit := by
  rcases step_cases hStep with ⟨-, hRoom, rfl⟩ | ⟨-, owner, outer, hOwners, rfl⟩ |
    ⟨-, owner, outer, hOwners, rfl⟩ | rfl
  · -- The new group's owner is on the level of the groups open before it.
    refine ⟨_, h.grow (sketch.cursor :: sketch.owners) hOrdered hOrdered.cursor_lt ?_ ?_ hRoom⟩
    · rw [List.length_cons, h.cursor_eq]
    · intro other outer hSuffix
      rcases List.suffix_cons_iff.1 hSuffix with hAll | hOuter
      · obtain ⟨rfl, rfl⟩ := List.cons.inj hAll
        exact ⟨hOrdered.cursor_lt, h.cursor_eq⟩
      · exact ⟨hOrdered.owner_lt other (hOuter.subset List.mem_cons_self),
          h.owner_eq other outer hOuter⟩
  · have hOwner : owner < sketch.drafts.size := hOrdered.owner_lt owner (by simp [hOwners])
    have hLevel : level owner = outer.length := h.owner_eq owner outer (by simp [hOwners])
    -- The limit has let the innermost group be opened, so it has room for another of its children.
    have hHeight : sketch.owners.length ≤ limit := by
      rw [← h.cursor_eq]
      exact h.le_limit sketch.cursor hOrdered.cursor_lt
    refine ⟨_, h.grow sketch.owners hOrdered hOwner ?_ ?_ hHeight⟩
    · rw [hOwners, List.length_cons, hLevel]
    · intro other rest hSuffix
      exact ⟨hOrdered.owner_lt other (hSuffix.subset List.mem_cons_self),
        h.owner_eq other rest hSuffix⟩
  · refine ⟨level, h.root_eq, h.owner_eq owner outer (by simp [hOwners]), ?_, h.child_eq, h.le_limit⟩
    intro other rest hSuffix
    exact h.owner_eq other rest (hOwners ▸ hSuffix.trans (List.suffix_cons owner outer))
  · exact ⟨level, h.mark token⟩

theorem exists_leveled_of_walk (first : Token)
    (hWalk : (start first).walk limit tokens = .ok next) :
    next.Ordered ∧ ∃ level, next.Leveled level limit := by
  refine walk_induction (motive := fun sketch => sketch.Ordered ∧ ∃ level, sketch.Leveled level limit)
    ?_ ⟨ordered_start first, _, leveled_start limit first⟩ hWalk
  rintro sketch next token - ⟨hOrdered, level, hLeveled⟩ hStep
  exact ⟨hOrdered.step hStep, hLeveled.step hOrdered hStep⟩

/-- One level more than the limit is enough to read what has been drawn. -/
theorem exprWithin_of_walk (first : Token)
    (hWalk : (start first).walk limit tokens = .ok next) :
    exprWithin next.drafts (limit + 1) root = some next.toExpr := by
  obtain ⟨hOrdered, level, hLeveled⟩ := exists_leveled_of_walk first hWalk
  have hRoot : root < next.drafts.size := Nat.lt_of_le_of_lt (Nat.zero_le _) hOrdered.cursor_lt
  -- Levels grow from owner to child and stop at the limit, so what is left to it is a rank.
  have hSome : (exprWithin next.drafts (limit + 1) root).isSome := by
    refine isSome_exprWithin (fun id => limit - level id) ?_ hRoot ?_
    · intro id draft child hDraft hChild
      have hOrder := hOrdered.child_lt id draft child hDraft hChild
      have hLevel := hLeveled.child_eq id draft child hDraft hChild
      have hLimit := hLeveled.le_limit child hOrder.2
      constructor
      · show limit - level child < limit - level id
        omega
      · exact hOrder.2
    · show limit - level root < limit + 1
      omega
  obtain ⟨outcome, hOutcome⟩ := Option.isSome_iff_exists.1 hSome
  rw [hOutcome, hOrdered.toExpr_eq hOutcome]

end Sketch
end PrefixCalc
