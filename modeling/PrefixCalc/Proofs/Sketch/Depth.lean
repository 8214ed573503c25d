import PrefixCalc.Proofs.Sketch.Names
import PrefixCalc.Proofs.Sketch.Peak

/-!
# Depth of what is drawn

How far down a sketch goes, counted in links from an owner to a child (`Reaches`).  A draft is as
many links below the root as groups were open when it was made, whatever was written on it or hung
below it later, so the links stay within the limit, and one level more is enough to read the sketch
to its end, be that an expression or a fault.

The limit is only the first bound.  What is drawn is the same under any limit that lets the walk
end, so the bound holds for the least of these as well, and that is the most groups open at once
(`Token.peak`), a number that some moment of the walk attains (`exists_moment_of_draw`).
-/

namespace PrefixCalc
namespace Token

variable {limit height : Nat} {token : Token}

/-- Before a token the peak is the one behind it, or it is attained here. -/
theorem peak_cons_cases {next : Nat} (tokens : List Token)
    (h : openGroups limit height token = .ok next) :
    peak height (token :: tokens) = peak next tokens ∨ peak height (token :: tokens) = height := by
  cases token with
  | keyword _ | number _ | var _ =>
    obtain rfl : height = next := Except.ok.inj h
    exact Or.inl rfl
  | opening =>
    simp only [openGroups] at h
    split at h
    · exact absurd h (by simp)
    · obtain rfl : height + 1 = next := Except.ok.inj h
      exact Or.inl rfl
  | comma =>
    simp only [openGroups] at h
    split at h
    · exact absurd h (by simp)
    · next hOpen =>
      obtain rfl : height = next := Except.ok.inj h
      exact Or.inl (by rw [peak, if_neg hOpen])
  | closing =>
    simp only [openGroups] at h
    split at h
    · exact absurd h (by simp)
    · next hOpen =>
      obtain rfl : height - 1 = next := Except.ok.inj h
      rw [peak, if_neg hOpen]
      rcases Nat.le_total height (peak (height - 1) tokens) with hLe | hLe
      · exact Or.inl (Nat.max_eq_right hLe)
      · exact Or.inr (Nat.max_eq_left hLe)

/-- A count of open groups that comes to its end has taken a first step. -/
theorem exists_openGroups_of_foldlM_cons {final : Nat} {tokens : List Token}
    (h : (token :: tokens).foldlM (openGroups limit) height = .ok final) :
    ∃ next, openGroups limit height token = .ok next ∧
      tokens.foldlM (openGroups limit) next = .ok final := by
  rw [List.foldlM_cons] at h
  exact bind_eq_ok_iff.1 h

/-- A count of open groups that comes to its end has been at the peak behind some of the tokens. -/
theorem exists_prefix_peak {final : Nat} {tokens : List Token}
    (h : tokens.foldlM (openGroups limit) height = .ok final) :
    ∃ before, before <+: tokens ∧
      before.foldlM (openGroups limit) height = .ok (peak height tokens) := by
  induction tokens generalizing height with
  | nil => exact ⟨[], List.nil_prefix, rfl⟩
  | cons token tokens ih =>
    obtain ⟨next, hStep, hRest⟩ := exists_openGroups_of_foldlM_cons h
    obtain ⟨before, hPrefix, hBefore⟩ := ih hRest
    rcases peak_cons_cases tokens hStep with hLater | hHere
    · refine ⟨token :: before, (List.prefix_cons_inj token).2 hPrefix, ?_⟩
      rw [List.foldlM_cons, hStep, hLater]
      exact hBefore
    · exact ⟨[], List.nil_prefix, by rw [hHere]; rfl⟩

end Token

namespace Sketch

variable {limit : Nat} {sketch : Sketch} {tokens : List Token}

/-- Draft number `id` is as many links below the root as given, each from an owner to a child. -/
inductive Reaches (drafts : Array Draft) : Nat → Nat → Prop
  | root : Reaches drafts 0 Sketch.root
  | child {links id child : Nat} {draft : Draft} : Reaches drafts links id →
      drafts[id]? = some draft → child ∈ draft.children → Reaches drafts (links + 1) child

/-- The level of a draft is the number of links above it. -/
theorem Leveled.level_eq {level : Nat → Nat} {links id : Nat} (hOrdered : sketch.Ordered)
    (hLeveled : sketch.Leveled level limit) (h : Reaches sketch.drafts links id) :
    level id = links ∧ id < sketch.drafts.size := by
  induction h with
  | root => exact ⟨hLeveled.root_eq, Nat.lt_of_le_of_lt (Nat.zero_le _) hOrdered.cursor_lt⟩
  | @child links id child draft _ hDraft hChild ih =>
    have hLevel := hLeveled.child_eq id draft child hDraft hChild
    exact ⟨by rw [hLevel, ih.1], (hOrdered.child_lt id draft child hDraft hChild).2⟩

/-- What is drawn within a limit is no deeper than the limit. -/
theorem le_limit_of_reaches {links id : Nat} (hDraw : draw limit tokens = .ok sketch)
    (h : Reaches sketch.drafts links id) : links ≤ limit := by
  obtain ⟨first, rest, -, hWalk⟩ := exists_walk_of_draw hDraw
  obtain ⟨hOrdered, level, hLeveled⟩ := exists_leveled_of_walk first hWalk
  obtain ⟨hLevel, hSize⟩ := hLeveled.level_eq hOrdered h
  rw [← hLevel]
  exact hLeveled.le_limit id hSize

/-- One level more than the limit reads what is drawn to the end. -/
theorem exprWithin_of_draw (hDraw : draw limit tokens = .ok sketch) :
    exprWithin sketch.drafts (limit + 1) root = some sketch.toExpr := by
  obtain ⟨first, rest, -, hWalk⟩ := exists_walk_of_draw hDraw
  exact exprWithin_of_walk first hWalk

/-! ## The most groups open at once -/

theorem length_owners_foldl {height : Nat}
    (h : tokens.foldlM (Token.openGroups limit) sketch.owners.length = .ok height) :
    (tokens.foldl advance sketch).owners.length = height := by
  induction tokens generalizing sketch with
  | nil => exact Except.ok.inj h
  | cons token tokens ih =>
    obtain ⟨next, hStep, hRest⟩ := Token.exists_openGroups_of_foldlM_cons h
    apply ih
    rw [length_owners_advance hStep]
    exact hRest

/-- A walk that comes to its end has passed a moment with as many groups open as the peak says. -/
theorem exists_moment_of_draw {first : Token} (hDraw : draw limit (first :: tokens) = .ok sketch) :
    ∃ before moment, before <+: first :: tokens ∧ draw limit before = .ok moment ∧
      moment.owners.length = Token.peak 0 tokens := by
  rw [draw, walk_eq] at hDraw
  cases hCount : tokens.foldlM (Token.openGroups limit) (start first).owners.length with
  | error error =>
    rw [hCount] at hDraw
    exact absurd hDraw (by simp [Except.map])
  | ok final =>
    obtain ⟨before, hPrefix, hBefore⟩ := Token.exists_prefix_peak hCount
    refine ⟨first :: before, before.foldl advance (start first),
      (List.prefix_cons_inj first).2 hPrefix, ?_, length_owners_foldl hBefore⟩
    rw [draw, walk_eq, hBefore]
    rfl

/-- What is drawn within a limit is drawn within the peak too. -/
theorem draw_peak {first : Token} (hDraw : draw limit (first :: tokens) = .ok sketch) :
    draw (Token.peak 0 tokens) (first :: tokens) = .ok sketch := by
  rw [draw_eq] at hDraw ⊢
  rw [if_neg (Nat.lt_irrefl _)]
  split at hDraw
  · exact absurd hDraw (by simp)
  · exact hDraw

/-- At some moment of its drawing as many groups are open as an expression has levels below its
root. -/
theorem exists_moment_of_build {e : Expr} (h : build limit tokens = .ok e) :
    ∃ before moment, before <+: tokens ∧ draw limit before = .ok moment ∧
      e.depth - 1 ≤ moment.owners.length := by
  obtain ⟨sketch, hDraw, hExpr⟩ := exists_draw_of_build h
  obtain ⟨first, rest, rfl, -⟩ := exists_walk_of_draw hDraw
  obtain ⟨before, moment, hPrefix, hMoment, hPeak⟩ := exists_moment_of_draw hDraw
  -- The peak is a limit that would have done, so one level more reads the same expression.
  have hRead := exprWithin_of_draw (draw_peak hDraw)
  rw [hExpr] at hRead
  obtain ⟨-, hDepth⟩ := stands_of_exprWithin hRead
  exact ⟨before, moment, hPrefix, hMoment, by omega⟩

/-- Whatever the tokens, a walk that comes to its end under a limit has drawn no draft that is more
links below the root than the limit, and one level more than the limit is enough to read the sketch,
whether it has a typed form or a fault.  So an expression that is built has at most one level more
than the limit; its levels below the root are no more than the groups that were open at some moment
of the walk. -/
theorem depth_le_of_draw (limit : Nat) (tokens : List Token) :
    (∀ sketch, draw limit tokens = .ok sketch →
      (∀ links id, Reaches sketch.drafts links id → links ≤ limit) ∧
      exprWithin sketch.drafts (limit + 1) root = some sketch.toExpr) ∧
    ∀ e, build limit tokens = .ok e → e.depth ≤ limit + 1 ∧
      ∃ before moment, before <+: tokens ∧ draw limit before = .ok moment ∧
        e.depth - 1 ≤ moment.owners.length := by
  refine ⟨fun sketch hDraw => ⟨?_, exprWithin_of_draw hDraw⟩, fun e hBuild => ⟨?_, ?_⟩⟩
  · exact fun links id hReaches => le_limit_of_reaches hDraw hReaches
  · exact (names_and_depth_of_build hBuild).2
  · exact exists_moment_of_build hBuild

/-- A draft whose group is closed after one operand and opened again for the other: the expression
uses the limit up, and both groups are open at the end of the walk. -/
theorem depth_of_reopened_group :
    let tokens := [Token.keyword (.op .add), .opening, .number 1, .comma, .keyword (.op .mul),
      .opening, .number 2, .closing, .opening, .number 3]
    let sketch := tokens.tail.foldl advance (start (.keyword (.op .add)))
    let e := Expr.op .add (.number 1) (.op .mul (.number 2) (.number 3))
    draw 2 tokens = .ok sketch ∧ build 2 tokens = .ok e ∧ e.depth = 3 ∧
      (∀ links id, Reaches sketch.drafts links id → links ≤ 2) ∧
      exprWithin sketch.drafts 3 root = some (.ok e) ∧ exprWithin sketch.drafts 2 root = none ∧
      ∃ before moment, before <+: tokens ∧ draw 2 before = .ok moment ∧
        2 ≤ moment.owners.length := by
  intro tokens sketch e
  have hDraw : draw 2 tokens = .ok sketch := by decide
  have hBuild : build 2 tokens = .ok e := by decide
  have hExpr : sketch.toExpr = .ok e := by decide
  obtain ⟨hWalk, hDepth⟩ := depth_le_of_draw 2 tokens
  obtain ⟨hLinks, hRead⟩ := hWalk sketch hDraw
  obtain ⟨-, hMoment⟩ := hDepth e hBuild
  rw [hExpr] at hRead
  exact ⟨hDraw, hBuild, by decide, hLinks, hRead, by decide, hMoment⟩

end Sketch
end PrefixCalc
