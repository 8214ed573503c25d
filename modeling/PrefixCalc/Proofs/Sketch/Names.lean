import PrefixCalc.Proofs.Expr.Written
import PrefixCalc.Proofs.Sketch.Order

/-!
# Where names come from

However oddly a sketch has been drawn, a name on one of its drafts was a token that came after the
first one (`NamedBy`).  So the expression that is built has no other names than the tokens had, and
its depth is bounded by the limit; these two are all that reading it again depends on.
-/

namespace PrefixCalc
namespace Sketch

variable {limit : Nat} {sketch next : Sketch} {token : Token} {tokens : List Token}

/-- Every name on a draft is the name of one of the tokens. -/
def NamedBy (tokens : List Token) (sketch : Sketch) : Prop :=
  ∀ (id : Nat) (draft : Draft) (name : String), sketch.drafts[id]? = some draft →
    draft.name = some name → Token.var name ∈ tokens

/-- The first token leaves no name behind, even if it is one. -/
theorem namedBy_start (tokens : List Token) (first : Token) : (start first).NamedBy tokens := by
  intro id draft name hDraft hName
  obtain ⟨hLt, rfl⟩ := Array.getElem?_eq_some_iff.1 hDraft
  obtain rfl : id = 0 := Nat.lt_one_iff.1 hLt
  exact absurd hName (by simp [start])

theorem NamedBy.grow (h : sketch.NamedBy tokens) (owner : Nat) :
    (sketch.grow owner).NamedBy tokens := by
  intro id draft name hDraft hName
  rcases getElem?_grow_cases hDraft with ⟨-, rfl⟩ | ⟨-, old, hOld, rfl⟩ | hOld
  · exact absurd hName (by simp)
  · exact h id old name hOld (by rwa [Draft.name_adopt] at hName)
  · exact h id draft name hOld hName

/-- A token that is written on a draft brings its own name at most. -/
theorem NamedBy.mark (h : sketch.NamedBy tokens) (hToken : token ∈ tokens) :
    (sketch.mark token).NamedBy tokens := by
  intro id draft name hDraft hName
  obtain ⟨old, hOld, rfl | rfl⟩ := getElem?_mark_cases hDraft
  · exact h id draft name hOld hName
  · cases token with
    | var other =>
      obtain rfl : other = name := Option.some.inj hName
      exact hToken
    | keyword _ | number _ | comma | opening | closing => exact h id old name hOld hName

theorem NamedBy.step (h : sketch.NamedBy tokens) (hToken : token ∈ tokens)
    (hStep : sketch.step limit token = .ok next) : next.NamedBy tokens := by
  rcases step_cases hStep with ⟨-, -, rfl⟩ | ⟨-, owner, -, -, rfl⟩ | ⟨-, -, -, -, rfl⟩ | rfl
  · exact h.grow sketch.cursor
  · exact h.grow owner
  · exact h
  · exact h.mark hToken

theorem namedBy_of_walk (first : Token) (hWalk : (start first).walk limit tokens = .ok next) :
    next.NamedBy tokens :=
  walk_induction (fun hToken hNamed hStep => hNamed.step hToken hStep)
    (namedBy_start tokens first) hWalk

/-- The names of an expression are names of the drafts it stands on. -/
theorem NamedBy.mem_of_stands (h : sketch.NamedBy tokens) {id : Nat} {e : Expr}
    (hStands : Stands sketch.drafts id e) : ∀ name ∈ e.names, Token.var name ∈ tokens := by
  induction hStands with
  | number _ _ => simp [Expr.names]
  | @var id draft name hDraft hShape =>
    intro other hMem
    obtain rfl : other = name := List.mem_singleton.1 hMem
    exact h id draft other hDraft (Draft.name_of_shape_var hShape)
  | op _ _ _ _ ihLeft ihRight =>
    intro name hMem
    exact (List.mem_append.1 hMem).elim (ihLeft name) (ihRight name)
  | @binding _ _ _ _ name _ _ _ hShape _ _ ihValue ihBody =>
    intro other hMem
    rcases List.mem_cons.1 hMem with rfl | hMem
    · obtain ⟨-, -, first, -, hName⟩ := Draft.mem_children_of_shape_binding hShape
      obtain ⟨draft, hDraft, hFirst⟩ := Option.bind_eq_some_iff.1 hName
      exact h first draft other hDraft hFirst
    · exact (List.mem_append.1 hMem).elim (ihValue other) (ihBody other)

/-- What has been built was drawn. -/
theorem exists_draw_of_build {e : Expr} (h : build limit tokens = .ok e) :
    ∃ sketch, draw limit tokens = .ok sketch ∧ sketch.toExpr = .ok e := by
  rw [build] at h
  cases hDraw : draw limit tokens with
  | error error =>
    rw [hDraw] at h
    exact absurd h (by simp)
  | ok sketch =>
    simp only [hDraw] at h
    cases hExpr : sketch.toExpr with
    | error fault =>
      rw [hExpr] at h
      exact absurd h (by simp [Except.mapError])
    | ok other =>
      rw [hExpr] at h
      obtain rfl : other = e := Except.ok.inj h
      exact ⟨sketch, rfl, hExpr⟩

/-- It was read from a walk, with one level more than the limit. -/
theorem exists_walk_of_build {e : Expr} (h : build limit tokens = .ok e) :
    ∃ first rest sketch, tokens = first :: rest ∧ (start first).walk limit rest = .ok sketch ∧
      exprWithin sketch.drafts (limit + 1) root = some (.ok e) := by
  obtain ⟨sketch, hDraw, hExpr⟩ := exists_draw_of_build h
  obtain ⟨first, rest, rfl, hWalk⟩ := exists_walk_of_draw hDraw
  exact ⟨first, rest, sketch, rfl, hWalk, by rw [exprWithin_of_walk first hWalk, hExpr]⟩

/-- What has been built has no name that was not a token, and it is not too deep for the limit. -/
theorem names_and_depth_of_build {e : Expr} (h : build limit tokens = .ok e) :
    (∀ name ∈ e.names, Token.var name ∈ tokens) ∧ e.depth ≤ limit + 1 := by
  obtain ⟨first, rest, sketch, rfl, hWalk, hRead⟩ := exists_walk_of_build h
  obtain ⟨hStands, hDepth⟩ := stands_of_exprWithin hRead
  refine ⟨fun name hMem => List.mem_cons_of_mem first ?_, hDepth⟩
  exact (namedBy_of_walk first hWalk).mem_of_stands hStands name hMem

end Sketch
end PrefixCalc
