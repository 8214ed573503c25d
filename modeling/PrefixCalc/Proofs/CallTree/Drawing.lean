import PrefixCalc.Proofs.CallTree.Basic
import PrefixCalc.Proofs.Sketch.Order

/-!
# Drawing call notation

What the tokens of a call tree draw, in whatever sketch they come.  The tree is drawn on the current
draft and on new drafts; every other draft stays as it is (`Drawn`).  The reading of the tree looks
at these drafts alone, so `Holds` stays true whatever is drawn elsewhere before or after.

Main statement: `exists_walk_tokens`, with its counterpart for arguments.
-/

namespace PrefixCalc

open Sketch (exprWithin exprWithin_succ exprWithin_mono pair)

namespace Draft

/-- A draft without a free slot drops all further children. -/
theorem foldl_adopt_of_full {draft : Draft} (ids : List Nat) (hFirst : draft.first.isSome)
    (hMiddle : draft.keyword = some .binding → draft.middle.isSome) (hLast : draft.last.isSome) :
    ids.foldl adopt draft = draft := by
  have hFilled : ∀ slot : Option Nat, slot.isSome → ¬ slot.isNone = true := by
    intro slot hSome hNone
    rw [Option.isNone_iff_eq_none.1 hNone] at hSome
    exact Bool.false_ne_true hSome
  induction ids with
  | nil => rfl
  | cons id ids ih =>
    have hDrop : draft.adopt id = draft := by
      unfold adopt
      rw [if_neg (hFilled _ hFirst), if_neg (fun h => hFilled _ (hMiddle h.1) h.2),
        if_neg (hFilled _ hLast)]
    rw [List.foldl_cons, hDrop, ih]

/-- The slots of a call of an operator, or of none, with two or more arguments. -/
theorem foldl_adopt_operator {head : Option Keyword} (a b : Nat) (ids : List Nat)
    (hHead : head ≠ some .binding) :
    (a :: b :: ids).foldl adopt { keyword := head } =
      { keyword := head, first := some a, last := some b } := by
  have hTwo : (adopt { keyword := head } a).adopt b =
      { keyword := head, first := some a, last := some b } := by
    simp [adopt, hHead]
  rw [List.foldl_cons, List.foldl_cons, hTwo]
  exact foldl_adopt_of_full ids rfl (fun h => absurd h hHead) rfl

/-- The slots of a `let` with three or more arguments. -/
theorem foldl_adopt_binding (a b c : Nat) (ids : List Nat) :
    (a :: b :: c :: ids).foldl adopt { keyword := some .binding } =
      { keyword := some .binding, first := some a, middle := some b, last := some c } := by
  rw [List.foldl_cons, List.foldl_cons, List.foldl_cons]
  exact foldl_adopt_of_full ids rfl (fun _ => rfl) rfl

theorem name_foldl_adopt (draft : Draft) (ids : List Nat) :
    (ids.foldl adopt draft).name = draft.name := by
  induction ids generalizing draft with
  | nil => rfl
  | cons id ids ih =>
    rw [List.foldl_cons, ih, name_adopt]

/-- What a draft becomes that has nothing but a keyword and children. -/
theorem shape_foldl_adopt (nameOf : Nat → Option String) (head : Option Keyword) (a : Nat)
    (ids : List Nat) :
    ((a :: ids).foldl adopt { keyword := head }).shape nameOf =
      match head, ids with
      | _, [] => .error .valueless
      | none, _ :: _ => .error .notOperator
      | some (.op operator), b :: _ => .ok (.op operator a b)
      | some .binding, b :: rest =>
        match nameOf a, rest with
        | none, _ => .error .unnamed
        | some _, [] => .error .bodiless
        | some name, c :: _ => .ok (.binding name b c) := by
  cases ids with
  | nil => rcases head with _ | operator | _ <;> rfl
  | cons b rest =>
    rcases head with _ | operator | _
    · rw [foldl_adopt_operator a b rest (by simp)]
      rfl
    · rw [foldl_adopt_operator a b rest (by simp)]
      rfl
    · cases rest with
      | nil => cases hName : nameOf a <;> simp [shape, adopt, hName]
      | cons c rest =>
        rw [foldl_adopt_binding]
        cases hName : nameOf a <;> simp [shape, hName]

end Draft

namespace CallTree

/-! ## Reading what has been drawn -/

/-- Draft number `id` carries the name of the tree and is read as the tree. -/
structure Holds (drafts : Array Draft) (id : Nat) (tree : CallTree) : Prop where
  nameOf_eq : Sketch.nameOf drafts id = tree.name?
  exprWithin_eq : exprWithin drafts (tree.nesting + 1) id = some tree.expr

theorem pair_some (make : Expr → Expr → Expr) (left right : Except Fault Expr) :
    pair make (some left) (some right) = some (both make left right) := by
  cases left <;> rfl

theorem Holds.exprWithin_of_le {drafts : Array Draft} {id levels : Nat} {tree : CallTree}
    (h : Holds drafts id tree) (hLe : tree.nesting + 1 ≤ levels) :
    exprWithin drafts levels id = some tree.expr :=
  exprWithin_mono hLe h.exprWithin_eq

/-- A draft that has taken in the arguments of a call stands for the call. -/
theorem holds_call {drafts : Array Draft} {id : Nat} {ids : List Nat} {head : Option Keyword}
    {first : CallTree} {rest : List CallTree}
    (hDraft : drafts[id]? = some (ids.foldl Draft.adopt { keyword := head }))
    (hArguments : List.Forall₂ (Holds drafts) ids (first :: rest)) :
    Holds drafts id (.call head first rest) := by
  have hBelow : ∀ argument ∈ first :: rest,
      argument.nesting + 1 ≤ (call head first rest).nesting :=
    fun argument hMem => nesting_succ_le_of_mem head hMem
  cases hArguments with
  | cons hFirst hRest =>
    constructor
    · rw [Sketch.nameOf, hDraft]
      exact Draft.name_foldl_adopt _ _
    · rw [exprWithin_succ _ hDraft, Draft.shape_foldl_adopt, expr]
      cases hRest with
      | nil => rcases head with _ | operator | _ <;> rfl
      | cons hSecond hRest =>
        -- Without a head the call is at fault, an operator takes its first two arguments, and a
        -- binding its second and third, if its first is a name.
        rcases head with _ | operator | _
        · rfl
        · show pair _ _ _ = _
          rw [hFirst.exprWithin_of_le (hBelow _ (by simp)),
            hSecond.exprWithin_of_le (hBelow _ (by simp)), pair_some]
          rfl
        · simp only [hFirst.nameOf_eq]
          cases first.name? with
          | none => rfl
          | some name =>
            cases hRest with
            | nil => rfl
            | cons hThird hRest =>
              show pair _ _ _ = _
              rw [hSecond.exprWithin_of_le (hBelow _ (by simp)),
                hThird.exprWithin_of_le (hBelow _ (by simp)), pair_some]
              rfl

theorem holds_number {drafts : Array Draft} {id : Nat} {value : Int32}
    (hDraft : drafts[id]? = some { number := some value }) : Holds drafts id (.number value) where
  nameOf_eq := by rw [Sketch.nameOf, hDraft]; rfl
  exprWithin_eq := by rw [exprWithin_succ _ hDraft]; rfl

theorem holds_var {drafts : Array Draft} {id : Nat} {name : String}
    (hDraft : drafts[id]? = some { name := some name }) : Holds drafts id (.var name) where
  nameOf_eq := by rw [Sketch.nameOf, hDraft]; rfl
  exprWithin_eq := by rw [exprWithin_succ _ hDraft]; rfl

theorem holds_absent {drafts : Array Draft} {id : Nat} (hDraft : drafts[id]? = some {}) :
    Holds drafts id .absent where
  nameOf_eq := by rw [Sketch.nameOf, hDraft]; rfl
  exprWithin_eq := by rw [exprWithin_succ _ hDraft]; rfl

/-! ## Drawing -/

/-- Nothing has changed but one draft, and new drafts may have come. -/
structure Kept (before after : Array Draft) (changed : Nat) : Prop where
  size_le : before.size ≤ after.size
  getElem?_eq : ∀ id, id < before.size → id ≠ changed → after[id]? = before[id]?

/-- The tree has been drawn on the current draft of `before`: wherever that draft and the new ones
are found again, the tree can be read. -/
structure Drawn (before after : Sketch) (tree : CallTree) : Prop where
  owners_eq : after.owners = before.owners
  cursor_eq : after.cursor = before.cursor
  kept : Kept before.drafts after.drafts before.cursor
  holds : ∀ drafts : Array Draft,
    (∀ id, id = before.cursor ∨ (before.drafts.size ≤ id ∧ id < after.drafts.size) →
      drafts[id]? = after.drafts[id]?) → Holds drafts before.cursor tree

/-- The arguments have been drawn as drafts with the numbers `ids`, which `owner`, once `draft`, has
taken in. -/
structure DrawnArguments (before after : Array Draft) (owner : Nat) (draft : Draft)
    (ids : List Nat) (arguments : List CallTree) : Prop where
  kept : Kept before after owner
  owner_eq : after[owner]? = some (ids.foldl Draft.adopt draft)
  holds : ∀ drafts : Array Draft,
    (∀ id, before.size ≤ id ∧ id < after.size → drafts[id]? = after[id]?) →
      List.Forall₂ (Holds drafts) ids arguments

theorem Kept.refl (drafts : Array Draft) (changed : Nat) : Kept drafts drafts changed :=
  ⟨Nat.le_refl _, fun _ _ _ => rfl⟩

theorem Kept.trans {before middle after : Array Draft} {changed : Nat}
    (hFirst : Kept before middle changed) (hSecond : Kept middle after changed) :
    Kept before after changed where
  size_le := Nat.le_trans hFirst.size_le hSecond.size_le
  getElem?_eq := by
    intro id hId hNe
    rw [hSecond.getElem?_eq id (Nat.lt_of_lt_of_le hId hFirst.size_le) hNe,
      hFirst.getElem?_eq id hId hNe]

/-- Further arguments leave those before them where they are. -/
theorem DrawnArguments.append {before middle after : Array Draft} {owner : Nat} {draft : Draft}
    {ids more : List Nat} {arguments others : List CallTree} (hOwner : owner < before.size)
    (hFirst : DrawnArguments before middle owner draft ids arguments)
    (hSecond : DrawnArguments middle after owner (ids.foldl Draft.adopt draft) more others) :
    DrawnArguments before after owner draft (ids ++ more) (arguments ++ others) where
  kept := hFirst.kept.trans hSecond.kept
  owner_eq := by rw [hSecond.owner_eq, List.foldl_append]
  holds := by
    intro drafts hDrafts
    have hBefore := hFirst.kept.size_le
    have hAfter := hSecond.kept.size_le
    apply List.rel_append
    · -- The drafts of the arguments before are old to the others and none of them is the owner.
      apply hFirst.holds
      intro id hId
      rw [hDrafts id ⟨hId.1, by omega⟩]
      exact hSecond.kept.getElem?_eq id hId.2 (by omega)
    · apply hSecond.holds
      intro id hId
      exact hDrafts id ⟨by omega, hId.2⟩

/-- The sketch that goes on with a new child of `owner`, whose group is open inside `outer`. -/
def enter (sketch : Sketch) (owner : Nat) (outer : List Nat) : Sketch :=
  { sketch.grow owner with owners := owner :: outer }

theorem step_opening {limit : Nat} {sketch : Sketch} (h : sketch.owners.length < limit) :
    sketch.step limit .opening = .ok (enter sketch sketch.cursor sketch.owners) := by
  rw [Sketch.step, if_neg (Nat.not_le.2 h)]
  rfl

theorem step_comma {sketch : Sketch} {owner : Nat} {outer : List Nat} (limit : Nat)
    (h : sketch.owners = owner :: outer) :
    sketch.step limit .comma = .ok (enter sketch owner outer) := by
  simp [Sketch.step, enter, Sketch.grow, h]

theorem size_enter (sketch : Sketch) (owner : Nat) (outer : List Nat) :
    (enter sketch owner outer).drafts.size = sketch.drafts.size + 1 :=
  Sketch.size_grow sketch owner

/-- The draft entered is empty. -/
theorem getElem?_cursor_enter (sketch : Sketch) (owner : Nat) (outer : List Nat) :
    (enter sketch owner outer).drafts[(enter sketch owner outer).cursor]? = some {} := by
  show (sketch.grow owner).drafts[sketch.drafts.size]? = some {}
  rw [Sketch.getElem?_grow, if_pos rfl]

/-- A tree drawn on a new child is an argument of the child's owner. -/
theorem Drawn.argument {sketch after : Sketch} {owner : Nat} {outer : List Nat} {draft : Draft}
    {tree : CallTree} (hDraft : sketch.drafts[owner]? = some draft)
    (h : Drawn (enter sketch owner outer) after tree) :
    DrawnArguments sketch.drafts after.drafts owner draft [sketch.drafts.size] [tree] := by
  have hOwner : owner < sketch.drafts.size := (Array.getElem?_eq_some_iff.1 hDraft).1
  have hSize := size_enter sketch owner outer
  have hGrown : sketch.drafts.size + 1 ≤ after.drafts.size := hSize ▸ h.kept.size_le
  have hKept : ∀ id, id < sketch.drafts.size →
      after.drafts[id]? = (sketch.grow owner).drafts[id]? := by
    intro id hId
    exact h.kept.getElem?_eq id (by omega) (Nat.ne_of_lt hId)
  refine ⟨⟨by omega, ?_⟩, ?_, ?_⟩
  · intro id hId hNe
    rw [hKept id hId, Sketch.getElem?_grow, if_neg (Nat.ne_of_lt hId), if_neg (Ne.symm hNe)]
  · rw [hKept owner hOwner, Sketch.getElem?_grow, if_neg (Nat.ne_of_lt hOwner), if_pos rfl, hDraft]
    rfl
  · intro drafts hDrafts
    refine List.Forall₂.cons (h.holds drafts ?_) List.Forall₂.nil
    intro id hId
    have hCursor : (enter sketch owner outer).cursor = sketch.drafts.size := rfl
    exact hDrafts id (by omega)

/-- The head of a call leaves its keyword on an empty draft and nothing else. -/
theorem exists_walk_head (limit : Nat) (head : Option Keyword) {sketch : Sketch}
    (hCursor : sketch.drafts[sketch.cursor]? = some {}) :
    ∃ drafts, sketch.walk limit (head.map Token.keyword).toList =
        .ok { sketch with drafts := drafts } ∧
      drafts.size = sketch.drafts.size ∧ Kept sketch.drafts drafts sketch.cursor ∧
      drafts[sketch.cursor]? = some { keyword := head } := by
  cases head with
  | none => exact ⟨sketch.drafts, rfl, rfl, Kept.refl _ _, hCursor⟩
  | some word =>
    refine ⟨(sketch.mark (.keyword word)).drafts, rfl, Sketch.size_mark _ _, ⟨?_, ?_⟩, ?_⟩
    · exact Nat.le_of_eq (Sketch.size_mark _ _).symm
    · intro id _ hNe
      rw [Sketch.getElem?_mark, if_neg (Ne.symm hNe)]
    · rw [Sketch.getElem?_mark, if_pos rfl, hCursor]
      rfl

/-- A call is drawn once its head, its bracket and its arguments are. -/
theorem Drawn.call {sketch after : Sketch} {drafts : Array Draft} {ids : List Nat}
    {head : Option Keyword} {first : CallTree} {rest : List CallTree} {owners : List Nat}
    (hSize : drafts.size = sketch.drafts.size)
    (hHead : Kept sketch.drafts drafts sketch.cursor)
    (hArguments : DrawnArguments drafts after.drafts sketch.cursor { keyword := head } ids
      (first :: rest))
    (hOwners : owners = sketch.owners) :
    Drawn sketch { after with owners := owners, cursor := sketch.cursor }
      (.call head first rest) where
  owners_eq := hOwners
  cursor_eq := rfl
  kept := hHead.trans hArguments.kept
  holds := by
    intro others hOthers
    apply holds_call
    · rw [hOthers sketch.cursor (Or.inl rfl)]
      exact hArguments.owner_eq
    · apply hArguments.holds
      intro id hId
      exact hOthers id (Or.inr ⟨hSize ▸ hId.1, hId.2⟩)

/-- A payload alone draws a leaf. -/
theorem drawn_mark {sketch : Sketch} {token : Token} {tree : CallTree}
    (hCursor : sketch.drafts[sketch.cursor]? = some {})
    (hHolds : ∀ drafts : Array Draft, drafts[sketch.cursor]? = some (Draft.write {} token) →
      Holds drafts sketch.cursor tree) :
    Drawn sketch (sketch.mark token) tree where
  owners_eq := rfl
  cursor_eq := rfl
  kept := by
    constructor
    · exact Nat.le_of_eq (Sketch.size_mark _ _).symm
    · intro id _ hNe
      rw [Sketch.getElem?_mark, if_neg (Ne.symm hNe)]
  holds := by
    intro drafts hDrafts
    apply hHolds
    rw [hDrafts sketch.cursor (Or.inl rfl), Sketch.getElem?_mark, if_pos rfl, hCursor]
    rfl

mutual

/-- On an empty current draft the tokens of a tree draw the tree. -/
theorem exists_walk_tokens (limit : Nat) (tree : CallTree) (sketch : Sketch)
    (hCursor : sketch.drafts[sketch.cursor]? = some {})
    (hRoom : sketch.owners.length + tree.nesting ≤ limit) :
    ∃ next, sketch.walk limit tree.tokens = .ok next ∧ Drawn sketch next tree := by
  cases tree with
  | number value => exact ⟨_, rfl, drawn_mark hCursor fun _ => holds_number⟩
  | var name => exact ⟨_, rfl, drawn_mark hCursor fun _ => holds_var⟩
  | absent =>
    refine ⟨sketch, rfl, rfl, rfl, Kept.refl _ _, fun drafts hDrafts => holds_absent ?_⟩
    rw [hDrafts sketch.cursor (Or.inl rfl), hCursor]
  | call head first rest =>
    rw [nesting] at hRoom
    obtain ⟨drafts, hHead, hSize, hKept, hDraft⟩ := exists_walk_head limit head hCursor
    have hOpening : ({ sketch with drafts := drafts } : Sketch).step limit .opening =
        .ok (enter { sketch with drafts := drafts } sketch.cursor sketch.owners) :=
      step_opening (by show sketch.owners.length < limit; omega)
    obtain ⟨after, ids, hArguments, hOwners, hDrawn⟩ :=
      exists_walk_arguments limit first rest { sketch with drafts := drafts } sketch.owners hDraft
        (by omega)
    refine ⟨_, ?_, Drawn.call hSize hKept hDrawn rfl⟩
    -- The keyword, the opening bracket, the arguments, the closing bracket.
    rw [tokens, Sketch.walk_append, hHead, Except.bind, Sketch.walk_cons, hOpening, Except.bind,
      ← List.append_assoc, Sketch.walk_append, hArguments, Except.bind, Sketch.walk_cons,
      Sketch.step, hOwners]
    rfl
termination_by 2 * sizeOf tree

/-- The arguments of an open call are drawn as children of its draft, the first of them on the child
that the opening bracket has made. -/
theorem exists_walk_arguments (limit : Nat) (first : CallTree) (rest : List CallTree)
    (sketch : Sketch) {owner : Nat} (outer : List Nat) {draft : Draft}
    (hDraft : sketch.drafts[owner]? = some draft)
    (hRoom : outer.length + 1 + max first.nesting (restNesting rest) ≤ limit) :
    ∃ next ids,
      (enter sketch owner outer).walk limit (first.tokens ++ restTokens rest) = .ok next ∧
      next.owners = owner :: outer ∧
      DrawnArguments sketch.drafts next.drafts owner draft ids (first :: rest) := by
  have hOpen : (enter sketch owner outer).owners.length = outer.length + 1 := rfl
  obtain ⟨after, hFirst, hDrawn⟩ :=
    exists_walk_tokens limit first (enter sketch owner outer)
      (getElem?_cursor_enter sketch owner outer) (by omega)
  have hArgument := hDrawn.argument hDraft
  rw [Sketch.walk_append, hFirst]
  cases rest with
  | nil => exact ⟨after, _, rfl, hDrawn.owners_eq, hArgument⟩
  | cons second rest =>
    rw [restNesting] at hRoom
    obtain ⟨next, ids, hRest, hOwners, hOthers⟩ :=
      exists_walk_arguments limit second rest after outer hArgument.owner_eq (by omega)
    refine ⟨next, _, ?_, hOwners, hArgument.append (Array.getElem?_eq_some_iff.1 hDraft).1 hOthers⟩
    rw [restTokens, Except.bind, Sketch.walk_cons, step_comma limit hDrawn.owners_eq]
    exact hRest
termination_by 2 * (sizeOf first + sizeOf rest) + 1

end

end CallTree
end PrefixCalc
