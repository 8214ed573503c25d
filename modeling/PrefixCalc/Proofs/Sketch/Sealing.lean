import PrefixCalc.Proofs.Sketch.Arena

/-!
# Taking a sketch apart

The expression can be read from a sketch without keeping the sketch: each draft is taken out when it
is read, with an empty one left in its place, and the name of a binding is taken off its first child
(`sealWithin`).  A draft in two slots would be found empty the second time.  In a forest there is
none: what the taking apart of a child changes is in the tree under that child (`Taken`), and the
trees under the other children have no place in common with it (`IsForest.disjoint_below`), so they
are still as they were drawn.  The answer is then the one that `exprWithin` reads from drafts that
do not change.  No draft is visited twice, those that are visited are left empty, and the others
lose at most their name (`Visits`).

`buildChecked` draws and takes apart, and looks at every number before it is used.  It builds what
`build` builds.
-/

namespace PrefixCalc

/-- The draft without its name. -/
def Draft.unnamed (draft : Draft) : Draft :=
  { draft with name := none }

/-- What is read of a draft: its payloads, two operands, or a binding. -/
theorem Draft.slots_cases (draft : Draft) :
    (draft.first = none ∨ draft.middle = none ∧ draft.last = none) ∨
    (∃ first last, draft.first = some first ∧ draft.middle = none ∧ draft.last = some last) ∨
    ∃ first value, draft.first = some first ∧ draft.middle = some value := by
  cases draft.first <;> cases draft.middle <;> cases draft.last <;> simp

namespace Sketch

/-- What is left of a sketch that is being taken apart. -/
structure Remains where
  /-- The drafts, with an empty one for each that has been taken out. -/
  drafts : Array Draft
  /-- The numbers of the drafts that have been taken out, the latest first. -/
  visited : List Nat
  deriving DecidableEq, Repr

namespace Remains

/-- Nothing has been taken out yet. -/
def whole (drafts : Array Draft) : Remains where
  drafts := drafts
  visited := []

/-- The draft with the given number, if there is one, and what is left without it. -/
def takeDraft (remains : Remains) (id : Nat) : Option (Draft × Remains) :=
  if h : id < remains.drafts.size then
    some (remains.drafts[id],
      { drafts := remains.drafts.set id {} h, visited := id :: remains.visited })
  else none

/-- The name on the draft with the given number, if there is such a draft, and what is left without
the name. -/
def takeName (remains : Remains) (id : Nat) : Option (Option String × Remains) :=
  if h : id < remains.drafts.size then
    some (remains.drafts[id].name,
      { remains with drafts := remains.drafts.set id remains.drafts[id].unnamed h })
  else none

end Remains

/-- Two children are taken apart in a row.  A fault of the left one keeps the right one from being
visited. -/
def sealPair (make : Expr → Expr → Expr)
    (left right : Remains → Option (Except Fault Expr × Remains)) (remains : Remains) :
    Option (Except Fault Expr × Remains) :=
  match left remains with
  | some (.ok l, rest) => (right rest).map fun answer => (answer.1.map (make l), answer.2)
  | failure => failure

/-- The expression under draft number `id` and what is left when it has been taken apart.  The
answer is `none` when a number is used that is no number of a draft, or when the levels are not
enough. -/
def sealWithin : Nat → Nat → Remains → Option (Except Fault Expr × Remains)
  | 0, _, _ => none
  | levels + 1, id, remains =>
    match remains.takeDraft id with
    | none => none
    | some (draft, rest) =>
      match draft.first, draft.middle, draft.last with
      | some first, some middle, last =>
        match rest.takeName first, last with
        | none, _ => none
        | some (none, rest), _ => some (.error .unnamed, rest)
        | some (some _, rest), none => some (.error .bodiless, rest)
        | some (some name, rest), some last =>
          sealPair (.binding name) (sealWithin levels middle) (sealWithin levels last) rest
      | some first, none, some last =>
        match draft.keyword with
        | some (.op operator) =>
          sealPair (.op operator) (sealWithin levels first) (sealWithin levels last) rest
        | _ => some (.error .notOperator, rest)
      | _, _, _ => some (draft.leaf.map Leaf.toExpr, rest)

/-- The expression that a list of tokens draws, by drawing with a look at every number and taking
the sketch apart.  The answer is `none` when a number is no number of a draft. -/
def buildChecked (limit : Nat) (tokens : List Token) : Option (Except ParseError Expr) :=
  match drawChecked limit tokens with
  | none => none
  | some (.error error) => some (.error error)
  | some (.ok sketch) =>
    (sealWithin sketch.drafts.size root (.whole sketch.drafts)).map fun answer =>
      answer.1.mapError fun fault => .malformed fault.details

variable {limit levels id child other : Nat} {sketch : Sketch} {tokens : List Token}
variable {drafts : Array Draft} {before middle after : Remains} {places others : Set Nat}

/-! ## Places -/

/-- The numbers of the drafts in the tree under a draft. -/
def below (drafts : Array Draft) (id : Nat) : Set Nat :=
  {place | Under drafts id place}

theorem below_subset (hOwns : Owns drafts id child) : below drafts child ⊆ below drafts id :=
  fun _ hUnder => Relation.ReflTransGen.head hOwns hUnder

theorem mem_below_self (drafts : Array Draft) (id : Nat) : id ∈ below drafts id :=
  Relation.ReflTransGen.refl

theorem singleton_subset_below (drafts : Array Draft) (id : Nat) : {id} ⊆ below drafts id :=
  Set.singleton_subset_iff.2 (mem_below_self drafts id)

/-- A draft is not in the tree under its child. -/
theorem IsForest.disjoint_self (h : sketch.IsForest) (hOwns : Owns sketch.drafts id child) :
    Disjoint {id} (below sketch.drafts child) :=
  Set.disjoint_singleton_left.2 (h.toOrdered.not_under_of_owns hOwns)

/-- The trees under two children have no place in common. -/
theorem IsForest.disjoint_below (h : sketch.IsForest) (hChild : Owns sketch.drafts id child)
    (hOther : Owns sketch.drafts id other) (hNe : child ≠ other) :
    Disjoint (below sketch.drafts child) (below sketch.drafts other) := by
  refine Set.disjoint_left.2 fun place hPlace hPlaceOther => hNe ?_
  exact h.toUnshared.eq_of_under h.toOrdered hChild hOther hPlace hPlaceOther

/-- The places still hold what was drawn. -/
def Intact (drafts : Array Draft) (places : Set Nat) (remains : Remains) : Prop :=
  ∀ place ∈ places, remains.drafts[place]? = drafts[place]?

theorem Intact.mono (h : Intact drafts places before) (hSubset : others ⊆ places) :
    Intact drafts others before :=
  fun place hMem => h place (hSubset hMem)

/-- The drafts with these numbers, none of them twice, have been taken out on the way from `before`
to `after`, and of the others no more than the name. -/
structure Visits (visits : List Nat) (before after : Remains) : Prop where
  visited : after.visited = visits ++ before.visited
  nodup : visits.Nodup
  /-- A draft that has been taken out leaves an empty one behind. -/
  empty : ∀ place ∈ visits, after.drafts[place]? = some {}
  /-- A draft that has not been taken out is still there. -/
  rest : ∀ place, place ∉ visits →
    after.drafts[place]?.map Draft.unnamed = before.drafts[place]?.map Draft.unnamed

/-- Some drafts of the given places have been taken out, and nothing has changed elsewhere. -/
structure Taken (places : Set Nat) (before after : Remains) : Prop where
  exists_visits : ∃ visits, Visits visits before after ∧ ∀ place ∈ visits, place ∈ places
  kept : ∀ place, place ∉ places → after.drafts[place]? = before.drafts[place]?

theorem Taken.mono (h : Taken places before after) (hSubset : places ⊆ others) :
    Taken others before after where
  exists_visits := by
    obtain ⟨visits, hVisits, hMem⟩ := h.exists_visits
    exact ⟨visits, hVisits, fun place hPlace => hSubset (hMem place hPlace)⟩
  kept := fun place hPlace => h.kept place fun hMem => hPlace (hSubset hMem)

/-- Visits after each other, when what has been taken first is not touched again. -/
theorem Visits.append {visits later : List Nat} (h : Visits visits before middle)
    (hLater : Visits later middle after)
    (hKept : ∀ place ∈ visits, after.drafts[place]? = middle.drafts[place]?)
    (hApart : later.Disjoint visits) : Visits (later ++ visits) before after where
  visited := by rw [hLater.visited, h.visited, List.append_assoc]
  nodup := List.nodup_append'.2 ⟨hLater.nodup, h.nodup, hApart⟩
  empty := by
    intro place hPlace
    rcases List.mem_append.1 hPlace with hPlace | hPlace
    · exact hLater.empty place hPlace
    · exact (hKept place hPlace).trans (h.empty place hPlace)
  rest := by
    intro place hPlace
    rw [List.mem_append, not_or] at hPlace
    exact (hLater.rest place hPlace.1).trans (h.rest place hPlace.2)

/-- What is taken from places apart from each other is taken from both. -/
theorem Taken.trans (h : Taken places before middle) (hNext : Taken others middle after)
    (hApart : Disjoint places others) : Taken (places ∪ others) before after where
  exists_visits := by
    obtain ⟨visits, hVisits, hMem⟩ := h.exists_visits
    obtain ⟨later, hLater, hMemLater⟩ := hNext.exists_visits
    have hApartLater : ∀ place ∈ visits, place ∉ others :=
      fun place hPlace => Set.disjoint_left.1 hApart (hMem place hPlace)
    refine ⟨later ++ visits, hVisits.append hLater ?kept ?apart, ?places⟩
    case kept => exact fun place hPlace => hNext.kept place (hApartLater place hPlace)
    case apart =>
      exact fun place hPlace hEarlier => hApartLater place hEarlier (hMemLater place hPlace)
    case places =>
      intro place hPlace
      rcases List.mem_append.1 hPlace with hPlace | hPlace
      · exact Set.mem_union_right _ (hMemLater place hPlace)
      · exact Set.mem_union_left _ (hMem place hPlace)
  kept := by
    intro place hPlace
    rw [Set.mem_union, not_or] at hPlace
    rw [hNext.kept place hPlace.2, h.kept place hPlace.1]

/-- Taking drafts from other places leaves the given ones as they were. -/
theorem Intact.of_taken (h : Intact drafts others before) (hTaken : Taken places before after)
    (hApart : Disjoint places others) : Intact drafts others after := by
  intro place hMem
  rw [hTaken.kept place (Set.disjoint_right.1 hApart hMem)]
  exact h place hMem

/-! ## One draft -/

theorem exists_takeDraft {draft : Draft} (hDraft : before.drafts[id]? = some draft) :
    ∃ after, before.takeDraft id = some (draft, after) ∧ Taken {id} before after := by
  obtain ⟨hLt, rfl⟩ := Array.getElem?_eq_some_iff.1 hDraft
  have hKept : ∀ place, place ≠ id →
      (before.drafts.set id {} hLt)[place]? = before.drafts[place]? :=
    fun place hNe => Array.getElem?_set_ne hLt (Ne.symm hNe)
  refine ⟨_, dif_pos hLt, ⟨[id], ⟨rfl, List.nodup_singleton id, ?empty, ?rest⟩, ?places⟩, hKept⟩
  case empty =>
    intro place hPlace
    obtain rfl := List.mem_singleton.1 hPlace
    exact Array.getElem?_set_self hLt
  case rest => exact fun place hPlace => by rw [hKept place fun hEq => hPlace (by simp [hEq])]
  case places => exact fun place hPlace => List.mem_singleton.1 hPlace

theorem exists_takeName {draft : Draft} (hDraft : before.drafts[id]? = some draft) :
    ∃ after, before.takeName id = some (draft.name, after) ∧ Taken {id} before after := by
  obtain ⟨hLt, rfl⟩ := Array.getElem?_eq_some_iff.1 hDraft
  have hKept : ∀ place, place ≠ id →
      (before.drafts.set id before.drafts[id].unnamed hLt)[place]? = before.drafts[place]? :=
    fun place hNe => Array.getElem?_set_ne hLt (Ne.symm hNe)
  refine ⟨_, dif_pos hLt, ⟨[], ⟨rfl, List.nodup_nil, ?empty, ?rest⟩, ?places⟩, hKept⟩
  case empty => exact fun place hPlace => absurd hPlace List.not_mem_nil
  case rest =>
    intro place _
    by_cases hPlace : place = id
    · subst hPlace
      rw [Array.getElem?_set_self hLt, hDraft]
      rfl
    · rw [hKept place hPlace]
  case places => exact fun place hPlace => absurd hPlace List.not_mem_nil

/-! ### How it is read and how it is taken apart -/

section
variable {draft : Draft} {first last value : Nat}

theorem exprWithin_leaf (levels : Nat) (hDraft : drafts[id]? = some draft)
    (hSlots : draft.first = none ∨ draft.middle = none ∧ draft.last = none) :
    exprWithin drafts (levels + 1) id = some (draft.leaf.map Leaf.toExpr) := by
  have hShape : draft.shape (nameOf drafts) = draft.leaf.map .leaf := by
    rcases hSlots with hFirst | ⟨hMiddle, hLast⟩
    · simp [Draft.shape, hFirst]
    · cases hFirst : draft.first <;> simp [Draft.shape, hFirst, hMiddle, hLast]
  rw [exprWithin_succ levels hDraft, hShape]
  cases draft.leaf <;> rfl

theorem sealWithin_leaf (levels : Nat) (hTake : before.takeDraft id = some (draft, after))
    (hSlots : draft.first = none ∨ draft.middle = none ∧ draft.last = none) :
    sealWithin (levels + 1) id before = some (draft.leaf.map Leaf.toExpr, after) := by
  simp only [sealWithin, hTake]
  rcases hSlots with hFirst | ⟨hMiddle, hLast⟩
  · simp only [hFirst]
  · cases hFirst : draft.first <;> simp only [hMiddle, hLast]

theorem exprWithin_operands (levels : Nat) (hDraft : drafts[id]? = some draft)
    (hFirst : draft.first = some first) (hMiddle : draft.middle = none)
    (hLast : draft.last = some last) :
    exprWithin drafts (levels + 1) id =
      match draft.keyword with
      | some (.op operator) =>
        pair (.op operator) (exprWithin drafts levels first) (exprWithin drafts levels last)
      | _ => some (.error .notOperator) := by
  rw [exprWithin_succ levels hDraft]
  simp only [Draft.shape, hFirst, hMiddle, hLast]
  rcases draft.keyword with _ | (operator | _) <;> rfl

theorem sealWithin_operands (levels : Nat) (hTake : before.takeDraft id = some (draft, after))
    (hFirst : draft.first = some first) (hMiddle : draft.middle = none)
    (hLast : draft.last = some last) :
    sealWithin (levels + 1) id before =
      match draft.keyword with
      | some (.op operator) =>
        sealPair (.op operator) (sealWithin levels first) (sealWithin levels last) after
      | _ => some (.error .notOperator, after) := by
  simp only [sealWithin, hTake, hFirst, hMiddle, hLast]

theorem exprWithin_binding (levels : Nat) (hDraft : drafts[id]? = some draft)
    (hFirst : draft.first = some first) (hMiddle : draft.middle = some value) :
    exprWithin drafts (levels + 1) id =
      match nameOf drafts first, draft.last with
      | none, _ => some (.error .unnamed)
      | some _, none => some (.error .bodiless)
      | some name, some last =>
        pair (.binding name) (exprWithin drafts levels value) (exprWithin drafts levels last) := by
  rw [exprWithin_succ levels hDraft]
  simp only [Draft.shape, hFirst, hMiddle]
  cases nameOf drafts first <;> cases draft.last <;> rfl

theorem sealWithin_binding (levels : Nat) (hTake : before.takeDraft id = some (draft, middle))
    (hFirst : draft.first = some first) (hMiddle : draft.middle = some value) :
    sealWithin (levels + 1) id before =
      match middle.takeName first, draft.last with
      | none, _ => none
      | some (none, rest), _ => some (.error .unnamed, rest)
      | some (some _, rest), none => some (.error .bodiless, rest)
      | some (some name, rest), some last =>
        sealPair (.binding name) (sealWithin levels value) (sealWithin levels last) rest := by
  simp only [sealWithin, hTake, hFirst, hMiddle]

end

/-! ## Whole trees -/

/-- Two children that are taken apart as they are read give what they are read as. -/
theorem exists_sealPair {make : Expr → Expr → Expr} {outcome : Except Fault Expr}
    {leftRead rightRead : Option (Except Fault Expr)}
    {left right : Remains → Option (Except Fault Expr × Remains)}
    (hLeft : ∀ o, leftRead = some o → ∃ middle, left before = some (o, middle) ∧
      Taken places before middle)
    (hRight : ∀ middle o, Taken places before middle → rightRead = some o →
      ∃ after, right middle = some (o, after) ∧ Taken others middle after)
    (hApart : Disjoint places others) (hRead : pair make leftRead rightRead = some outcome) :
    ∃ after, sealPair make left right before = some (outcome, after) ∧
      Taken (places ∪ others) before after := by
  rcases leftRead with _ | fault | l
  · exact absurd hRead (by simp [pair])
  · obtain rfl : Except.error fault = outcome := Option.some.inj hRead
    obtain ⟨middle, hSeal, hTaken⟩ := hLeft _ rfl
    refine ⟨middle, ?_, hTaken.mono Set.subset_union_left⟩
    rw [sealPair, hSeal]
  · obtain ⟨middle, hSeal, hTaken⟩ := hLeft _ rfl
    obtain ⟨answer, hAnswer, rfl⟩ := Option.map_eq_some_iff.1 hRead
    obtain ⟨after, hSealRight, hTakenRight⟩ := hRight middle answer hTaken hAnswer
    refine ⟨after, ?_, hTaken.trans hTakenRight hApart⟩
    rw [sealPair, hSeal]
    simp only [hSealRight, Option.map_some]

/-- With so many levels, as long as the tree under a draft is intact, taking it apart gives what
reading it gives and changes nothing but the tree. -/
def SealsAsRead (drafts : Array Draft) (levels : Nat) : Prop :=
  ∀ (id : Nat) (before : Remains) (outcome : Except Fault Expr),
    Intact drafts (below drafts id) before → exprWithin drafts levels id = some outcome →
      ∃ after, sealWithin levels id before = some (outcome, after) ∧
        Taken (below drafts id) before after

/-- Two children are still intact when drafts have been taken from places apart from theirs. -/
theorem IsForest.exists_sealPair (h : sketch.IsForest) (hSeals : SealsAsRead sketch.drafts levels)
    {make : Expr → Expr → Expr} {outcome : Except Fault Expr}
    (hIntact : Intact sketch.drafts (below sketch.drafts id) before)
    (hTaken : Taken places before middle) (hPlaces : places ⊆ below sketch.drafts id)
    (hChild : Owns sketch.drafts id child) (hOther : Owns sketch.drafts id other)
    (hNe : child ≠ other) (hApart : Disjoint places (below sketch.drafts child))
    (hApartOther : Disjoint places (below sketch.drafts other))
    (hRead : pair make (exprWithin sketch.drafts levels child)
      (exprWithin sketch.drafts levels other) = some outcome) :
    ∃ after, sealPair make (sealWithin levels child) (sealWithin levels other) middle =
      some (outcome, after) ∧ Taken (below sketch.drafts id) before after := by
  have hChildren := h.disjoint_below hChild hOther hNe
  have hIntactChild : Intact sketch.drafts (below sketch.drafts child) middle :=
    (hIntact.mono (below_subset hChild)).of_taken hTaken hApart
  have hIntactOther : Intact sketch.drafts (below sketch.drafts other) middle :=
    (hIntact.mono (below_subset hOther)).of_taken hTaken hApartOther
  obtain ⟨after, hSeal, hTakenBoth⟩ :=
    Sketch.exists_sealPair (fun o hRead => hSeals child middle o hIntactChild hRead)
      (fun rest o hTakenChild hRead =>
        hSeals other rest o (hIntactOther.of_taken hTakenChild hChildren) hRead)
      hChildren hRead
  refine ⟨after, hSeal, ?_⟩
  refine (hTaken.trans hTakenBoth (Set.disjoint_union_right.2 ⟨hApart, hApartOther⟩)).mono ?_
  exact Set.union_subset hPlaces (Set.union_subset (below_subset hChild) (below_subset hOther))

/-- When a draft has been taken out, its child still has its name, and taking the name leaves the
trees under the other children alone. -/
theorem IsForest.exists_takeName_child (h : sketch.IsForest)
    (hIntact : Intact sketch.drafts (below sketch.drafts id) before)
    (hTaken : Taken {id} before middle) (hChild : Owns sketch.drafts id child) :
    ∃ after, middle.takeName child = some (nameOf sketch.drafts child, after) ∧
      Taken ({id} ∪ {child}) before after ∧ {id} ∪ {child} ⊆ below sketch.drafts id ∧
      ∀ other, Owns sketch.drafts id other → child ≠ other →
        Disjoint ({id} ∪ {child}) (below sketch.drafts other) := by
  have hApart := h.disjoint_self hChild
  have hSelf := singleton_subset_below sketch.drafts child
  have hIntactChild : Intact sketch.drafts (below sketch.drafts child) middle :=
    (hIntact.mono (below_subset hChild)).of_taken hTaken hApart
  have hLt := (h.toOrdered.lt_of_owns hChild).2
  have hDraft : sketch.drafts[child]? = some sketch.drafts[child] := Array.getElem?_eq_getElem hLt
  obtain ⟨after, hName, hTakenName⟩ :=
    exists_takeName ((hIntactChild child (mem_below_self _ child)).trans hDraft)
  refine ⟨after, ?name, hTaken.trans hTakenName (hApart.mono_right hSelf), ?subset, ?apart⟩
  case name =>
    rw [hName, nameOf, hDraft]
    rfl
  case subset =>
    exact Set.union_subset (singleton_subset_below _ id) (hSelf.trans (below_subset hChild))
  case apart =>
    intro other hOther hNe
    exact Set.disjoint_union_left.2
      ⟨h.disjoint_self hOther, (h.disjoint_below hChild hOther hNe).mono_left hSelf⟩

section
variable {draft : Draft} {first last value : Nat} {outcome : Except Fault Expr}

/-- A draft with two operands, whatever its keyword. -/
theorem IsForest.exists_seal_operands (h : sketch.IsForest)
    (hSeals : SealsAsRead sketch.drafts levels)
    (hIntact : Intact sketch.drafts (below sketch.drafts id) before)
    (hDraft : sketch.drafts[id]? = some draft)
    (hTake : before.takeDraft id = some (draft, middle)) (hTaken : Taken {id} before middle)
    (hFirst : draft.first = some first) (hMiddle : draft.middle = none)
    (hLast : draft.last = some last)
    (hRead : exprWithin sketch.drafts (levels + 1) id = some outcome) :
    ∃ after, sealWithin (levels + 1) id before = some (outcome, after) ∧
      Taken (below sketch.drafts id) before after := by
  have hChildren : draft.children = [first, last] := by
    simp [Draft.children, hFirst, hMiddle, hLast]
  have hLeft : Owns sketch.drafts id first := ⟨draft, hDraft, by simp [hChildren]⟩
  have hRight : Owns sketch.drafts id last := ⟨draft, hDraft, by simp [hChildren]⟩
  have hNe : first ≠ last := by simpa [hChildren] using h.nodup_children id draft hDraft
  have hSelf := singleton_subset_below sketch.drafts id
  rw [exprWithin_operands levels hDraft hFirst hMiddle hLast] at hRead
  rw [sealWithin_operands levels hTake hFirst hMiddle hLast]
  generalize draft.keyword = keyword at hRead ⊢
  rcases keyword with _ | (operator | _)
  · exact ⟨middle, by rw [Option.some.inj hRead], hTaken.mono hSelf⟩
  · exact h.exists_sealPair hSeals hIntact hTaken hSelf hLeft hRight hNe (h.disjoint_self hLeft)
      (h.disjoint_self hRight) hRead
  · exact ⟨middle, by rw [Option.some.inj hRead], hTaken.mono hSelf⟩

/-- A draft with a filled middle slot.  Its first child is not taken apart, only its name is
taken. -/
theorem IsForest.exists_seal_binding (h : sketch.IsForest)
    (hSeals : SealsAsRead sketch.drafts levels)
    (hIntact : Intact sketch.drafts (below sketch.drafts id) before)
    (hDraft : sketch.drafts[id]? = some draft)
    (hTake : before.takeDraft id = some (draft, middle)) (hTaken : Taken {id} before middle)
    (hFirst : draft.first = some first) (hMiddle : draft.middle = some value)
    (hRead : exprWithin sketch.drafts (levels + 1) id = some outcome) :
    ∃ after, sealWithin (levels + 1) id before = some (outcome, after) ∧
      Taken (below sketch.drafts id) before after := by
  have hOwns : ∀ child ∈ draft.children, Owns sketch.drafts id child :=
    fun child hMem => ⟨draft, hDraft, hMem⟩
  obtain ⟨unnamed, hName, hUnnamed, hPlaces, hApart⟩ :=
    h.exists_takeName_child hIntact hTaken (hOwns first (by simp [Draft.children, hFirst]))
  rw [exprWithin_binding levels hDraft hFirst hMiddle] at hRead
  rw [sealWithin_binding levels hTake hFirst hMiddle, hName]
  generalize nameOf sketch.drafts first = found at hRead ⊢
  rcases found with _ | name
  · exact ⟨unnamed, by rw [Option.some.inj hRead], hUnnamed.mono hPlaces⟩
  cases hLast : draft.last with
  | none =>
    rw [hLast] at hRead
    exact ⟨unnamed, by rw [Option.some.inj hRead], hUnnamed.mono hPlaces⟩
  | some last =>
    rw [hLast] at hRead
    have hChildren : draft.children = [first, value, last] := by
      simp [Draft.children, hFirst, hMiddle, hLast]
    have hValue : Owns sketch.drafts id value := hOwns value (by simp [hChildren])
    have hBody : Owns sketch.drafts id last := hOwns last (by simp [hChildren])
    obtain ⟨⟨hNeValue, hNeLast⟩, hNe⟩ : (first ≠ value ∧ first ≠ last) ∧ value ≠ last := by
      simpa [hChildren] using h.nodup_children id draft hDraft
    exact h.exists_sealPair hSeals hIntact hUnnamed hPlaces hValue hBody hNe
      (hApart value hValue hNeValue) (hApart last hBody hNeLast) hRead

end

/-- Whatever is left of the rest, an intact tree in a forest is taken apart as it is read. -/
theorem IsForest.sealsAsRead (h : sketch.IsForest) (levels : Nat) :
    SealsAsRead sketch.drafts levels := by
  induction levels with
  | zero =>
    intro id before outcome _ hRead
    exact absurd hRead (by simp [exprWithin])
  | succ levels ih =>
    intro id before outcome hIntact hRead
    cases hDraft : sketch.drafts[id]? with
    | none =>
      rw [exprWithin, hDraft] at hRead
      exact absurd hRead (by simp)
    | some draft =>
      obtain ⟨rest, hTake, hTaken⟩ :=
        exists_takeDraft ((hIntact id (mem_below_self _ id)).trans hDraft)
      rcases draft.slots_cases with hSlots | ⟨first, last, hFirst, hMiddle, hLast⟩ |
        ⟨first, value, hFirst, hMiddle⟩
      · rw [exprWithin_leaf levels hDraft hSlots] at hRead
        rw [sealWithin_leaf levels hTake hSlots, Option.some.inj hRead]
        exact ⟨rest, rfl, hTaken.mono (singleton_subset_below _ id)⟩
      · exact h.exists_seal_operands ih hIntact hDraft hTake hTaken hFirst hMiddle hLast hRead
      · exact h.exists_seal_binding ih hIntact hDraft hTake hTaken hFirst hMiddle hRead

/-- A draft that is in two slots is empty at the second visit. -/
example :
    let drafts : Array Draft :=
      #[{ keyword := some (.op .add), first := some 1, last := some 1 }, { number := some 5 }]
    exprWithin drafts 2 root = some (.ok (.op .add (.number 5) (.number 5))) ∧
      (sealWithin 2 root (.whole drafts)).map Prod.fst = some (.error .valueless) := by
  decide

/-- From the root, with nothing taken out yet. -/
theorem IsForest.exists_sealWithin_root (h : sketch.IsForest) {outcome : Except Fault Expr}
    (hRead : exprWithin sketch.drafts levels root = some outcome) :
    ∃ after, sealWithin levels root (.whole sketch.drafts) = some (outcome, after) ∧
      Visits after.visited (.whole sketch.drafts) after ∧
      ∀ id ∈ after.visited, Under sketch.drafts root id := by
  have hIntact : Intact sketch.drafts (below sketch.drafts root) (.whole sketch.drafts) :=
    fun _ _ => rfl
  obtain ⟨after, hSeal, hTaken⟩ := h.sealsAsRead levels root _ outcome hIntact hRead
  obtain ⟨visits, hVisits, hMem⟩ := hTaken.exists_visits
  obtain rfl : after.visited = visits := by rw [hVisits.visited, Remains.whole, List.append_nil]
  exact ⟨after, hSeal, hVisits, hMem⟩

/-- Whatever the tokens, no number misses, neither in drawing nor in taking apart. -/
theorem buildChecked_eq (limit : Nat) (tokens : List Token) :
    buildChecked limit tokens = some (build limit tokens) := by
  rw [buildChecked, drawChecked_eq, build]
  cases hDraw : draw limit tokens with
  | error error => rfl
  | ok sketch =>
    have hForest := isForest_of_draw hDraw
    obtain ⟨after, hSeal, -⟩ :=
      hForest.exists_sealWithin_root hForest.toOrdered.exprWithin_size
    simp only [hSeal, Option.map_some]

/-- Whatever the tokens and the limit, the drafts are a forest at every moment of the walk.  So when
the walk has come to its end, taking the sketch apart ends, too, and gives the expression or the
fault that is read from drafts that do not change, with as many levels as reading needs.  It visits
no draft twice and none that is not in the tree under the root; where it has been it leaves an empty
draft behind, and elsewhere it takes no more than a name.  Building with a look at every number
before it is used never finds one that is no number of a draft, and builds the same. -/
theorem isForest_and_seal_of_draw (limit : Nat) (tokens : List Token) :
    (∀ before moment, before <+: tokens → draw limit before = .ok moment → moment.IsForest) ∧
    (∀ sketch, draw limit tokens = .ok sketch →
      ∀ levels, limit < levels ∨ sketch.drafts.size ≤ levels →
        exprWithin sketch.drafts levels root = some sketch.toExpr ∧
        ∃ after, sealWithin levels root (.whole sketch.drafts) = some (sketch.toExpr, after) ∧
          after.visited.Nodup ∧
          (∀ id ∈ after.visited, Under sketch.drafts root id ∧ after.drafts[id]? = some {}) ∧
          ∀ id, id ∉ after.visited →
            after.drafts[id]?.map Draft.unnamed = sketch.drafts[id]?.map Draft.unnamed) ∧
    buildChecked limit tokens = some (build limit tokens) := by
  refine ⟨fun before moment _ hDraw => isForest_of_draw hDraw, ?_, buildChecked_eq limit tokens⟩
  intro sketch hDraw levels hLevels
  have hForest := isForest_of_draw hDraw
  have hRead : exprWithin sketch.drafts levels root = some sketch.toExpr := by
    rcases hLevels with hLimit | hSize
    · exact exprWithin_mono hLimit (exprWithin_of_draw hDraw)
    · exact exprWithin_mono hSize hForest.toOrdered.exprWithin_size
  obtain ⟨after, hSeal, hVisits, hUnder⟩ := hForest.exists_sealWithin_root hRead
  exact ⟨hRead, after, hSeal, hVisits.nodup,
    fun id hMem => ⟨hUnder id hMem, hVisits.empty id hMem⟩, hVisits.rest⟩

/-- A binding with a group behind its name, a group that is opened again in its body, and a child
that is dropped.  The first child of the binding, which only lends its name, what is under it, and
the child that is dropped are not visited. -/
theorem seal_of_dropped_child :
    let tokens := [Token.keyword .binding, .opening, .var "a", .opening, .number 9, .closing,
      .comma, .number 1, .comma, .keyword (.op .mul), .opening, .var "a", .closing, .opening,
      .number 2, .closing, .comma, .number 7, .closing]
    let sketch := tokens.tail.foldl advance (start (.keyword .binding))
    let e := Expr.binding "a" (.number 1) (.op .mul (.var "a") (.number 2))
    draw 2 tokens = .ok sketch ∧ sketch.IsForest ∧ sketch.drafts.size = 8 ∧
      (∃ after, sealWithin 3 root (.whole sketch.drafts) = some (.ok e, after) ∧
        after.visited.Nodup ∧
        (∀ id ∈ after.visited, Under sketch.drafts root id ∧ after.drafts[id]? = some {}) ∧
        ∀ id, id ∉ after.visited →
          after.drafts[id]?.map Draft.unnamed = sketch.drafts[id]?.map Draft.unnamed) ∧
      (sealWithin 3 root (.whole sketch.drafts)).map (fun answer => answer.2.visited) =
        some [6, 5, 4, 3, root] ∧
      buildChecked 2 tokens = some (.ok e) := by
  intro tokens sketch e
  have hDraw : draw 2 tokens = .ok sketch := by decide
  have hExpr : sketch.toExpr = .ok e := by decide
  have hBuild : build 2 tokens = .ok e := by decide
  obtain ⟨hForest, hSeal, hChecked⟩ := isForest_and_seal_of_draw 2 tokens
  obtain ⟨-, hTakenApart⟩ := hSeal sketch hDraw 3 (.inl (by decide))
  rw [hExpr] at hTakenApart
  rw [hBuild] at hChecked
  exact ⟨hDraw, hForest tokens sketch List.prefix_rfl hDraw, by decide, hTakenApart, by decide,
    hChecked⟩

end Sketch
end PrefixCalc
