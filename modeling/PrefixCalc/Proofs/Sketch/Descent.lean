import PrefixCalc.Sketch.ToExpr

/-!
# Descending into a sketch

What reading an expression from drafts comes to, whatever drew them.  A successful reading follows
the shapes of the drafts (`Stands`), takes one level of descent for each level of the expression and
gives the same with more levels.  An answer for want of levels is impossible when the drafts have a
rank that falls from owner to child and the levels exceed the rank (`isSome_exprWithin`).
-/

namespace PrefixCalc
namespace Draft

variable {draft : Draft} {nameOf : Nat → Option String} {name : String}

/-- All that a draft can become: a leaf by its payloads, an operator with its operands in the first
and the last slot and none between, or a binding with its value and its body in the middle and the
last slot and its name on the first child. -/
theorem shape_cases {shape : Shape} (h : draft.shape nameOf = .ok shape) :
    (∃ leaf, draft.leaf = .ok leaf ∧ shape = .leaf leaf) ∨
    (∃ operator left right, draft.first = some left ∧ draft.middle = none ∧
      draft.last = some right ∧ draft.keyword = some (.op operator) ∧
        shape = .op operator left right) ∨
    ∃ first name value body, draft.first = some first ∧ draft.middle = some value ∧
      draft.last = some body ∧ nameOf first = some name ∧ shape = .binding name value body := by
  unfold Draft.shape at h
  split at h
  case h_1 first middle hFirst hMiddle =>
    split at h
    · simp at h
    · simp at h
    · next name body hName hLast =>
      cases h
      exact Or.inr (Or.inr ⟨first, name, middle, body, hFirst, hMiddle, hLast, hName, rfl⟩)
  case h_2 first last hFirst hMiddle hLast =>
    split at h
    · next operator hKeyword =>
      cases h
      exact Or.inr (Or.inl ⟨operator, first, last, hFirst, hMiddle, hLast, hKeyword, rfl⟩)
    · simp at h
  case h_3 =>
    cases hLeaf : draft.leaf with
    | error fault => simp [hLeaf, Except.map] at h
    | ok leaf =>
      rw [hLeaf] at h
      cases h
      exact Or.inl ⟨leaf, rfl, rfl⟩

/-- An operator has its operands in the first and the last slot of its draft, and none between. -/
theorem slots_of_shape_op {operator : Operator} {left right : Nat}
    (h : draft.shape nameOf = .ok (.op operator left right)) :
    draft.first = some left ∧ draft.middle = none ∧ draft.last = some right ∧
      draft.keyword = some (.op operator) := by
  obtain ⟨_, -, hEq⟩ | ⟨_, _, _, hFirst, hMiddle, hLast, hKeyword, hEq⟩ |
    ⟨_, _, _, _, -, -, -, -, hEq⟩ := shape_cases h
  · cases hEq
  · cases hEq
    exact ⟨hFirst, hMiddle, hLast, hKeyword⟩
  · cases hEq

/-- A binding has its value and its body in the middle and the last slot of its draft, and its name
is the name on the first child. -/
theorem slots_of_shape_binding {value body : Nat}
    (h : draft.shape nameOf = .ok (.binding name value body)) :
    ∃ first, draft.first = some first ∧ draft.middle = some value ∧ draft.last = some body ∧
      nameOf first = some name := by
  obtain ⟨_, -, hEq⟩ | ⟨_, _, _, -, -, -, -, hEq⟩ |
    ⟨first, _, _, _, hFirst, hMiddle, hLast, hName, hEq⟩ := shape_cases h
  · cases hEq
  · cases hEq
  · cases hEq
    exact ⟨first, hFirst, hMiddle, hLast, hName⟩

/-- The operands of an operator are children of its draft. -/
theorem mem_children_of_shape_op {operator : Operator} {left right : Nat}
    (h : draft.shape nameOf = .ok (.op operator left right)) :
    left ∈ draft.children ∧ right ∈ draft.children := by
  obtain ⟨hFirst, -, hLast, -⟩ := slots_of_shape_op h
  simp [children, hFirst, hLast]

/-- The value and the body of a binding are children of its draft, and its name is the name on the
first child. -/
theorem mem_children_of_shape_binding {value body : Nat}
    (h : draft.shape nameOf = .ok (.binding name value body)) :
    value ∈ draft.children ∧ body ∈ draft.children ∧
      ∃ first, draft.first = some first ∧ nameOf first = some name := by
  obtain ⟨first, hFirst, hMiddle, hLast, hName⟩ := slots_of_shape_binding h
  exact ⟨by simp [children, hMiddle], by simp [children, hLast], first, hFirst, hName⟩

/-- A draft becomes a leaf by its payloads alone. -/
theorem leaf_of_shape_leaf {leaf : Leaf} (h : draft.shape nameOf = .ok (.leaf leaf)) :
    draft.leaf = .ok leaf := by
  obtain ⟨_, hLeaf, hEq⟩ | ⟨_, _, _, -, -, -, -, hEq⟩ | ⟨_, _, _, _, -, -, -, -, hEq⟩ :=
    shape_cases h
  · cases hEq
    exact hLeaf
  · cases hEq
  · cases hEq

theorem number_of_shape_number {value : Int32}
    (h : draft.shape nameOf = .ok (.leaf (.number value))) : draft.number = some value := by
  have hLeaf := leaf_of_shape_leaf h
  unfold leaf at hLeaf
  split at hLeaf
  · next hNumber =>
    cases hLeaf
    exact hNumber
  · simp at hLeaf
  · simp at hLeaf

theorem name_of_shape_var (h : draft.shape nameOf = .ok (.leaf (.var name))) :
    draft.name = some name := by
  have hLeaf := leaf_of_shape_leaf h
  unfold leaf at hLeaf
  split at hLeaf
  · simp at hLeaf
  · next hName =>
    cases hLeaf
    exact hName
  · simp at hLeaf

end Draft

namespace Sketch

variable {drafts : Array Draft}

/-- What the outcomes for two children make together.  The left one decides first. -/
def pair (make : Expr → Expr → Expr) (left right : Option (Except Fault Expr)) :
    Option (Except Fault Expr) :=
  match left with
  | some (.ok l) => right.map fun outcome => outcome.map (make l)
  | failure => failure

theorem pair_eq_ok_iff {make : Expr → Expr → Expr} {left right : Option (Except Fault Expr)}
    {e : Expr} : pair make left right = some (.ok e) ↔
      ∃ l r, left = some (.ok l) ∧ right = some (.ok r) ∧ make l r = e := by
  rcases left with _ | fault | l <;> rcases right with _ | fault | r <;> simp [pair, Except.map]

/-- Children that answer already keep the answer of the pair. -/
theorem pair_mono {make : Expr → Expr → Expr} {left right left' right' : Option (Except Fault Expr)}
    {outcome : Except Fault Expr} (hLeft : ∀ o, left = some o → left' = some o)
    (hRight : ∀ o, right = some o → right' = some o) (h : pair make left right = some outcome) :
    pair make left' right' = some outcome := by
  rcases left with _ | fault | l
  · exact absurd h (by simp [pair])
  · rw [hLeft _ rfl]
    exact h
  · rw [hLeft _ rfl]
    obtain ⟨answer, hAnswer, hMap⟩ := Option.map_eq_some_iff.1 h
    exact Option.map_eq_some_iff.2 ⟨answer, hRight answer hAnswer, hMap⟩

theorem isSome_pair {make : Expr → Expr → Expr} {left right : Option (Except Fault Expr)}
    (hLeft : left.isSome) (hRight : right.isSome) : (pair make left right).isSome := by
  rcases left with _ | fault | l
  · exact absurd hLeft (by simp)
  · rfl
  · simpa [pair] using hRight

/-- One level of the descent. -/
theorem exprWithin_succ {id : Nat} {draft : Draft} (levels : Nat)
    (h : drafts[id]? = some draft) :
    exprWithin drafts (levels + 1) id =
      match draft.shape (nameOf drafts) with
      | .error fault => some (.error fault)
      | .ok (.leaf leaf) => some (.ok leaf.toExpr)
      | .ok (.op operator left right) =>
        pair (.op operator) (exprWithin drafts levels left) (exprWithin drafts levels right)
      | .ok (.binding name value body) =>
        pair (.binding name) (exprWithin drafts levels value) (exprWithin drafts levels body) := by
  rw [exprWithin, h]
  rfl

/-- More levels change no answer. -/
theorem exprWithin_mono {levels more id : Nat} {outcome : Except Fault Expr} (hLe : levels ≤ more)
    (h : exprWithin drafts levels id = some outcome) :
    exprWithin drafts more id = some outcome := by
  induction levels generalizing more id outcome with
  | zero => exact absurd h (by simp [exprWithin])
  | succ levels ih =>
    obtain ⟨more, rfl⟩ : ∃ n, more = n + 1 := ⟨more - 1, by omega⟩
    -- Both readings look at the same drafts and differ in the levels left for the children.
    have hChild : ∀ child o, exprWithin drafts levels child = some o →
        exprWithin drafts more child = some o :=
      fun child o hAnswer => ih (Nat.le_of_succ_le_succ hLe) hAnswer
    cases hDraft : drafts[id]? with
    | none =>
      rw [exprWithin, hDraft] at h
      exact absurd h (by simp)
    | some draft =>
      rw [exprWithin_succ levels hDraft] at h
      rw [exprWithin_succ more hDraft]
      split at h
      · exact h
      · exact h
      · exact pair_mono (hChild _) (hChild _) h
      · exact pair_mono (hChild _) (hChild _) h

/-- When a rank falls from every owner to its children, the levels that exceed the rank of a draft
are enough for it. -/
theorem isSome_exprWithin (rank : Nat → Nat)
    (hChild : ∀ id draft child, drafts[id]? = some draft → child ∈ draft.children →
      rank child < rank id ∧ child < drafts.size)
    {levels id : Nat} (hId : id < drafts.size) (hRank : rank id < levels) :
    (exprWithin drafts levels id).isSome := by
  induction levels generalizing id with
  | zero => exact absurd hRank (Nat.not_lt_zero _)
  | succ levels ih =>
    have hDraft := Array.getElem?_eq_getElem hId
    -- The rank falls by one at least, so one level less is enough for a child.
    have hBelow : ∀ child ∈ drafts[id].children, (exprWithin drafts levels child).isSome := by
      intro child hMem
      obtain ⟨hLess, hSize⟩ := hChild id _ child hDraft hMem
      exact ih hSize (by omega)
    rw [exprWithin_succ levels hDraft]
    split
    · rfl
    · rfl
    · next hShape =>
      obtain ⟨hLeft, hRight⟩ := Draft.mem_children_of_shape_op hShape
      exact isSome_pair (hBelow _ hLeft) (hBelow _ hRight)
    · next hShape =>
      obtain ⟨hValue, hBody, -⟩ := Draft.mem_children_of_shape_binding hShape
      exact isSome_pair (hBelow _ hValue) (hBelow _ hBody)

/-- The draft with the given number stands for the expression. -/
inductive Stands (drafts : Array Draft) : Nat → Expr → Prop
  | number {id : Nat} {draft : Draft} {value : Int32} : drafts[id]? = some draft →
      draft.shape (nameOf drafts) = .ok (.leaf (.number value)) → Stands drafts id (.number value)
  | var {id : Nat} {draft : Draft} {name : String} : drafts[id]? = some draft →
      draft.shape (nameOf drafts) = .ok (.leaf (.var name)) → Stands drafts id (.var name)
  | op {id left right : Nat} {draft : Draft} {operator : Operator} {l r : Expr} :
      drafts[id]? = some draft →
      draft.shape (nameOf drafts) = .ok (.op operator left right) →
      Stands drafts left l → Stands drafts right r → Stands drafts id (.op operator l r)
  | binding {id value body : Nat} {draft : Draft} {name : String} {v b : Expr} :
      drafts[id]? = some draft →
      draft.shape (nameOf drafts) = .ok (.binding name value body) →
      Stands drafts value v → Stands drafts body b → Stands drafts id (.binding name v b)

/-- What has been read stands there, and it is no deeper than the levels descended. -/
theorem stands_of_exprWithin {levels id : Nat} {e : Expr}
    (h : exprWithin drafts levels id = some (.ok e)) :
    Stands drafts id e ∧ e.depth ≤ levels := by
  induction levels generalizing id e with
  | zero => exact absurd h (by simp [exprWithin])
  | succ levels ih =>
    cases hDraft : drafts[id]? with
    | none =>
      rw [exprWithin, hDraft] at h
      exact absurd h (by simp)
    | some draft =>
      rw [exprWithin_succ levels hDraft] at h
      split at h
      · exact absurd h (by simp)
      · next leaf hShape =>
        cases h
        cases leaf with
        | number value => exact ⟨.number hDraft hShape, by simp [Leaf.toExpr, Expr.depth]⟩
        | var name => exact ⟨.var hDraft hShape, by simp [Leaf.toExpr, Expr.depth]⟩
      · next hShape =>
        obtain ⟨l, r, hLeft, hRight, rfl⟩ := pair_eq_ok_iff.1 h
        obtain ⟨hStandsLeft, hDepthLeft⟩ := ih hLeft
        obtain ⟨hStandsRight, hDepthRight⟩ := ih hRight
        refine ⟨.op hDraft hShape hStandsLeft hStandsRight, ?_⟩
        rw [Expr.depth]
        omega
      · next hShape =>
        obtain ⟨v, b, hValue, hBody, rfl⟩ := pair_eq_ok_iff.1 h
        obtain ⟨hStandsValue, hDepthValue⟩ := ih hValue
        obtain ⟨hStandsBody, hDepthBody⟩ := ih hBody
        refine ⟨.binding hDraft hShape hStandsValue hStandsBody, ?_⟩
        rw [Expr.depth]
        omega

end Sketch
end PrefixCalc
