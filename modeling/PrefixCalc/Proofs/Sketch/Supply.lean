import PrefixCalc.Proofs.Sketch.Depth
import PrefixCalc.Proofs.Sketch.Forest

/-!
# What is built comes out of the tokens

Each part of an expression is a token that was read, and no token is used for two parts.  A draft
has at most three tokens left of those written on it: its number, its name, and the keyword that
decides what it becomes (`Draft.kept`).  For a draft with a filled middle slot this keyword is the
`let` under which the slot was filled, whatever has been written over it since.  A step adds its
token to what all drafts have left, at most (`kept_step_le`): writing gives up what it replaces, and
taking in a child changes nothing.

An expression takes its parts from different drafts, and the name of a binding from a draft that
is not read any further.  The trees under the children of a draft have nothing in common, so what
they have left adds up (`kept_add_sum_le`).
-/

namespace PrefixCalc

/-- The tokens that an expression consists of, brackets and commas apart. -/
def Expr.parts : Expr → Multiset Token
  | number value => {.number value}
  | var name => {.var name}
  | op operator left right => {.keyword (.op operator)} + left.parts + right.parts
  | binding name value body => {.keyword .binding} + {.var name} + value.parts + body.parts

namespace Draft

/-- The keyword that decides what the draft becomes.  Behind a filled middle slot it is `let`. -/
def word (draft : Draft) : Option Keyword :=
  if draft.middle.isSome then some .binding else draft.keyword

/-- The token in a slot, if there is one. -/
def held (slot : Option Token) : Multiset Token :=
  slot.elim 0 ({·})

/-- The tokens that the draft has left of those written on it. -/
def kept (draft : Draft) : Multiset Token :=
  held (draft.word.map .keyword) + held (draft.number.map .number) + held (draft.name.map .var)

/-- Taking in a child loses nothing: the keyword under which the middle slot is filled is `let`. -/
theorem kept_adopt (draft : Draft) (child : Nat) : (draft.adopt child).kept = draft.kept := by
  have hWord : (draft.adopt child).word = draft.word := by
    unfold adopt
    split_ifs with hFirst hMiddle hLast
    · rfl
    · simp [word, hMiddle.1]
    · rfl
    · rfl
  have hNumber : (draft.adopt child).number = draft.number := by
    unfold adopt
    split_ifs <;> rfl
  rw [kept, hWord, hNumber, name_adopt, kept]

/-- A token that is written gives up the keyword, takes its place, or leaves it. -/
theorem held_word_write_le (draft : Draft) (token : Token) :
    held ((draft.write token).word.map .keyword) ≤
      held (draft.word.map .keyword) + held (token.keyword?.map .keyword) := by
  have hWord : (draft.write token).word = draft.word ∨
      (draft.write token).word = token.keyword? := by
    cases hMiddle : draft.middle with
    | some middle => left; cases token <;> simp [write, word, hMiddle]
    | none => cases token <;> simp [write, word, hMiddle, Token.keyword?]
  rcases hWord with hSame | hNew
  · rw [hSame]
    exact Multiset.le_add_right _ _
  · rw [hNew]
    exact Multiset.le_add_left _ _

theorem kept_write_le (draft : Draft) (token : Token) :
    (draft.write token).kept ≤ draft.kept + {token} := by
  cases token with
  | keyword word =>
    have hWord := draft.held_word_write_le (.keyword word)
    calc (draft.write (.keyword word)).kept
      _ ≤ held (draft.word.map .keyword) + {.keyword word} + held (draft.number.map .number) +
          held (draft.name.map .var) := by
        exact add_le_add_left (add_le_add_left hWord _) _
      _ = draft.kept + {.keyword word} := by
        rw [kept]
        abel
  | number value =>
    have hWord := (draft.held_word_write_le (.number value)).trans_eq (add_zero _)
    calc (draft.write (.number value)).kept
      _ ≤ held (draft.word.map .keyword) + (held (draft.number.map .number) + {.number value}) +
          held (draft.name.map .var) := by
        exact add_le_add_left (add_le_add hWord (Multiset.le_add_left _ _)) _
      _ = draft.kept + {.number value} := by
        rw [kept]
        abel
  | var name =>
    have hWord := (draft.held_word_write_le (.var name)).trans_eq (add_zero _)
    calc (draft.write (.var name)).kept
      _ ≤ held (draft.word.map .keyword) + held (draft.number.map .number) +
          (held (draft.name.map .var) + {.var name}) := by
        exact add_le_add (add_le_add_left hWord _) (Multiset.le_add_left _ _)
      _ = draft.kept + {.var name} := by
        rw [kept]
        abel
  | comma | opening | closing => exact Multiset.le_add_right _ _

theorem keyword_le_kept {draft : Draft} {word : Keyword} (h : draft.word = some word) :
    {.keyword word} ≤ draft.kept := by
  rw [kept, h]
  exact (Multiset.le_add_right _ _).trans (Multiset.le_add_right _ _)

theorem number_le_kept {draft : Draft} {value : Int32} (h : draft.number = some value) :
    {.number value} ≤ draft.kept := by
  rw [kept, h]
  exact (Multiset.le_add_left _ _).trans (Multiset.le_add_right _ _)

theorem var_le_kept {draft : Draft} {name : String} (h : draft.name = some name) :
    {.var name} ≤ draft.kept := by
  rw [kept, h]
  exact Multiset.le_add_left _ _

end Draft

namespace Sketch

variable {limit id : Nat} {sketch next : Sketch} {token : Token} {tokens : List Token}
  {drafts : Array Draft}

/-- The tokens that draft number `id` has left. -/
def keptAt (drafts : Array Draft) (id : Nat) : Multiset Token :=
  drafts[id]?.elim 0 Draft.kept

/-- The tokens that all drafts have left. -/
def kept (drafts : Array Draft) : Multiset Token :=
  ∑ id ∈ Finset.range drafts.size, keptAt drafts id

theorem keptAt_eq {draft : Draft} (h : drafts[id]? = some draft) :
    keptAt drafts id = draft.kept := by
  rw [keptAt, h]
  rfl

/-- Of the first token no more than its keyword is kept. -/
theorem kept_start_le (first : Token) : kept (start first).drafts ≤ {first} := by
  have hSum : kept (start first).drafts = Draft.held (first.keyword?.map .keyword) := by
    show ∑ id ∈ Finset.range 1, keptAt (start first).drafts id = _
    rw [Finset.sum_range_one]
    exact (add_zero _).trans (add_zero _)
  rw [hSum]
  cases first with
  | keyword word => exact le_refl _
  | number _ | var _ | comma | opening | closing => exact Multiset.zero_le _

theorem kept_grow (sketch : Sketch) (owner : Nat) :
    kept (sketch.grow owner).drafts = kept sketch.drafts := by
  have hNew : keptAt (sketch.grow owner).drafts sketch.drafts.size = 0 := by
    rw [keptAt, getElem?_grow, if_pos rfl]
    rfl
  rw [kept, size_grow, Finset.sum_range_succ, hNew, add_zero]
  refine Finset.sum_congr rfl fun id hId => ?_
  rw [keptAt, getElem?_grow, if_neg (Finset.mem_range.1 hId).ne]
  split
  · rw [keptAt]
    cases sketch.drafts[id]? with
    | none => rfl
    | some draft => exact draft.kept_adopt _
  · rfl

theorem kept_mark_le (sketch : Sketch) (token : Token) :
    kept (sketch.mark token).drafts ≤ kept sketch.drafts + {token} := by
  have hAt : ∀ id ∈ Finset.range sketch.drafts.size, keptAt (sketch.mark token).drafts id ≤
      keptAt sketch.drafts id + if id = sketch.cursor then {token} else 0 := by
    intro id _
    rw [keptAt, getElem?_mark, keptAt]
    cases sketch.drafts[id]? with
    | none => split_ifs <;> exact Multiset.zero_le _
    | some draft =>
      by_cases hCursor : id = sketch.cursor
      · rw [if_pos hCursor.symm, if_pos hCursor]
        exact draft.kept_write_le token
      · rw [if_neg (Ne.symm hCursor), if_neg hCursor]
        exact Multiset.le_add_right _ _
  calc kept (sketch.mark token).drafts
    _ ≤ ∑ id ∈ Finset.range sketch.drafts.size,
        (keptAt sketch.drafts id + if id = sketch.cursor then {token} else 0) := by
      rw [kept, size_mark]
      exact Finset.sum_le_sum hAt
    _ ≤ kept sketch.drafts + {token} := by
      rw [Finset.sum_add_distrib, Finset.sum_ite_eq']
      refine add_le_add_right ?_ _
      split
      · exact le_refl _
      · exact Multiset.zero_le _

/-- A step adds its token to what is kept, at most. -/
theorem kept_step_le (hStep : sketch.step limit token = .ok next) :
    kept next.drafts ≤ kept sketch.drafts + {token} := by
  rcases step_cases hStep with ⟨-, -, rfl⟩ | ⟨-, owner, -, -, rfl⟩ | ⟨-, -, -, -, rfl⟩ | rfl
  · exact (kept_grow sketch sketch.cursor).trans_le (Multiset.le_add_right _ _)
  · exact (kept_grow sketch owner).trans_le (Multiset.le_add_right _ _)
  · exact Multiset.le_add_right _ _
  · exact kept_mark_le sketch token

/-- So a walk adds its tokens, at most. -/
theorem kept_walk_le (hWalk : sketch.walk limit tokens = .ok next) :
    kept next.drafts ≤ kept sketch.drafts + tokens := by
  induction tokens generalizing sketch with
  | nil =>
    obtain rfl : sketch = next := Except.ok.inj hWalk
    exact Multiset.le_add_right _ _
  | cons token tokens ih =>
    rw [walk_cons] at hWalk
    obtain ⟨middle, hFirst, hRest⟩ := bind_eq_ok_iff.1 hWalk
    calc kept next.drafts
      _ ≤ kept middle.drafts + tokens := ih hRest
      _ ≤ kept sketch.drafts + {token} + tokens := add_le_add_left (kept_step_le hFirst) _
      _ = kept sketch.drafts + ↑(token :: tokens) := by
        rw [add_assoc, Multiset.singleton_add, Multiset.cons_coe]

/-! ## The parts of an expression -/

open Classical in
/-- The numbers of the drafts in the tree under a draft. -/
noncomputable def tree (drafts : Array Draft) (id : Nat) : Finset Nat :=
  (Finset.range drafts.size).filter (Under drafts id)

/-- The tokens that the drafts in the tree under a draft have left. -/
noncomputable def keptUnder (drafts : Array Draft) (id : Nat) : Multiset Token :=
  ∑ place ∈ tree drafts id, keptAt drafts place

theorem mem_tree_iff {place : Nat} :
    place ∈ tree drafts id ↔ place < drafts.size ∧ Under drafts id place := by
  classical
  rw [tree, Finset.mem_filter, Finset.mem_range]

theorem keptUnder_le (drafts : Array Draft) (id : Nat) : keptUnder drafts id ≤ kept drafts := by
  apply Finset.sum_le_sum_of_subset
  exact fun place hPlace => Finset.mem_range.2 (mem_tree_iff.1 hPlace).1

/-- What a draft has left and what is left under its children is left under the draft, each token as
often. -/
theorem kept_add_sum_le {draft : Draft} (hOrdered : sketch.Ordered)
    (h : Unshared sketch.drafts) (hDraft : sketch.drafts[id]? = some draft) :
    draft.kept + (draft.children.map (keptUnder sketch.drafts)).sum ≤
      keptUnder sketch.drafts id := by
  have hOwns : ∀ child ∈ draft.children.toFinset, Owns sketch.drafts id child :=
    fun child hMem => ⟨draft, hDraft, List.mem_toFinset.1 hMem⟩
  have hApart : (draft.children.toFinset : Set Nat).PairwiseDisjoint (tree sketch.drafts) := by
    intro child hChild other hOther hNe
    refine Finset.disjoint_left.2 fun place hPlace hPlaceOther => hNe ?_
    exact h.eq_of_under hOrdered (hOwns child hChild) (hOwns other hOther)
      (mem_tree_iff.1 hPlace).2 (mem_tree_iff.1 hPlaceOther).2
  have hRoot : id ∉ draft.children.toFinset.biUnion (tree sketch.drafts) := by
    intro hMem
    obtain ⟨child, hChild, hPlace⟩ := Finset.mem_biUnion.1 hMem
    exact hOrdered.not_under_of_owns (hOwns child hChild) (mem_tree_iff.1 hPlace).2
  have hSubset : insert id (draft.children.toFinset.biUnion (tree sketch.drafts)) ⊆
      tree sketch.drafts id := by
    intro place hPlace
    rcases Finset.mem_insert.1 hPlace with rfl | hPlace
    · exact mem_tree_iff.2 ⟨(Array.getElem?_eq_some_iff.1 hDraft).1, Relation.ReflTransGen.refl⟩
    · obtain ⟨child, hChild, hPlace⟩ := Finset.mem_biUnion.1 hPlace
      obtain ⟨hSize, hUnder⟩ := mem_tree_iff.1 hPlace
      exact mem_tree_iff.2 ⟨hSize, hUnder.head (hOwns child hChild)⟩
  calc draft.kept + (draft.children.map (keptUnder sketch.drafts)).sum
    _ = ∑ place ∈ insert id (draft.children.toFinset.biUnion (tree sketch.drafts)),
        keptAt sketch.drafts place := by
      rw [Finset.sum_insert hRoot, Finset.sum_biUnion hApart, keptAt_eq hDraft,
        List.sum_toFinset _ (h.nodup_children id draft hDraft)]
      rfl
    _ ≤ keptUnder sketch.drafts id := Finset.sum_le_sum_of_subset hSubset

/-- What a draft has left is left under it. -/
theorem kept_le_keptUnder {draft : Draft} (hDraft : drafts[id]? = some draft) :
    draft.kept ≤ keptUnder drafts id := by
  have hMem : id ∈ tree drafts id :=
    mem_tree_iff.2 ⟨(Array.getElem?_eq_some_iff.1 hDraft).1, Relation.ReflTransGen.refl⟩
  rw [← keptAt_eq hDraft]
  exact Finset.single_le_sum (fun _ _ => Multiset.zero_le _) hMem

/-- What an expression consists of is left under the draft that it stands on. -/
theorem parts_le_of_stands {e : Expr} (hOrdered : sketch.Ordered) (h : Unshared sketch.drafts)
    (hStands : Stands sketch.drafts id e) : e.parts ≤ keptUnder sketch.drafts id := by
  induction hStands with
  | @number id draft value hDraft hShape =>
    have hNumber := Draft.number_of_shape_number hShape
    exact (Draft.number_le_kept hNumber).trans (kept_le_keptUnder hDraft)
  | @var id draft name hDraft hShape =>
    exact (Draft.var_le_kept (Draft.name_of_shape_var hShape)).trans (kept_le_keptUnder hDraft)
  | @op id left right draft operator l r hDraft hShape _ _ ihLeft ihRight =>
    obtain ⟨hFirst, hMiddle, hLast, hKeyword⟩ := Draft.slots_of_shape_op hShape
    have hWord : draft.word = some (.op operator) := by simp [Draft.word, hMiddle, hKeyword]
    have hChildren : draft.children = [left, right] := by
      simp [Draft.children, hFirst, hMiddle, hLast]
    have hKept := kept_add_sum_le hOrdered h hDraft
    rw [hChildren, List.map_cons, List.map_singleton, List.sum_cons, List.sum_singleton] at hKept
    calc (Expr.op operator l r).parts
      _ = {.keyword (.op operator)} + (l.parts + r.parts) := add_assoc _ _ _
      _ ≤ draft.kept + (keptUnder sketch.drafts left + keptUnder sketch.drafts right) :=
        add_le_add (Draft.keyword_le_kept hWord) (add_le_add ihLeft ihRight)
      _ ≤ keptUnder sketch.drafts id := hKept
  | @binding id value body draft name v b hDraft hShape _ _ ihValue ihBody =>
    obtain ⟨first, hFirst, hMiddle, hLast, hName⟩ := Draft.slots_of_shape_binding hShape
    have hWord : draft.word = some .binding := by simp [Draft.word, hMiddle]
    have hChildren : draft.children = [first, value, body] := by
      simp [Draft.children, hFirst, hMiddle, hLast]
    -- The first child gives its name and nothing else.
    obtain ⟨named, hNamed, hVar⟩ := Option.bind_eq_some_iff.1 hName
    have hFirstKept : {Token.var name} ≤ keptUnder sketch.drafts first :=
      (Draft.var_le_kept hVar).trans (kept_le_keptUnder hNamed)
    have hKept := kept_add_sum_le hOrdered h hDraft
    rw [hChildren, List.map_cons, List.map_cons, List.map_singleton, List.sum_cons, List.sum_cons,
      List.sum_singleton] at hKept
    calc (Expr.binding name v b).parts
      _ = {.keyword .binding} + ({.var name} + (v.parts + b.parts)) := by
        rw [Expr.parts, add_assoc, add_assoc]
      _ ≤ draft.kept + (keptUnder sketch.drafts first +
          (keptUnder sketch.drafts value + keptUnder sketch.drafts body)) :=
        add_le_add (Draft.keyword_le_kept hWord)
          (add_le_add hFirstKept (add_le_add ihValue ihBody))
      _ ≤ keptUnder sketch.drafts id := hKept

/-- Building neither invents nor duplicates anything: whatever is built from a list of tokens
consists of tokens of the list, and of each no more often than it is there. -/
theorem parts_le_of_build (limit : Nat) (tokens : List Token) (e : Expr)
    (h : build limit tokens = .ok e) : e.parts ≤ (tokens : Multiset Token) := by
  obtain ⟨first, rest, sketch, rfl, hWalk, hRead⟩ := exists_walk_of_build h
  obtain ⟨hOrdered, hUnshared⟩ := unshared_of_walk first hWalk
  obtain ⟨hStands, -⟩ := stands_of_exprWithin hRead
  calc e.parts
    _ ≤ keptUnder sketch.drafts root := parts_le_of_stands hOrdered hUnshared hStands
    _ ≤ kept sketch.drafts := keptUnder_le sketch.drafts root
    _ ≤ kept (start first).drafts + rest := kept_walk_le hWalk
    _ ≤ {first} + rest := add_le_add_left (kept_start_le first) _
    _ = ↑(first :: rest) := by rw [Multiset.singleton_add, Multiset.cons_coe]

/-- A binding whose keyword is written over, first by a number and then by another keyword, and whose
name comes from a call that is not read: the binding takes its own `let`, and the number, the other
keyword and the arguments of the call are left over. -/
theorem parts_of_overwritten_binding :
    let tokens := [Token.keyword .binding, .opening, .var "a", .opening, .number 9, .closing, .comma,
      .number 1, .comma, .var "a", .closing, .number 7, .keyword (.op .add)]
    let e := Expr.binding "a" (.number 1) (.var "a")
    build 2 tokens = .ok e ∧
      e.parts = {Token.keyword .binding, Token.var "a", Token.number 1, Token.var "a"} ∧
      e.parts ≤ (tokens : Multiset Token) := by
  intro tokens e
  have hBuild : build 2 tokens = .ok e := by decide
  exact ⟨hBuild, rfl, parts_le_of_build 2 tokens e hBuild⟩

end Sketch
end PrefixCalc
