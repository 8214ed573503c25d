import PrefixCalc.Proofs.Evaluate.Failure
import PrefixCalc.Proofs.Sketch.Depth

/-!
# Groups left open

A `)` moves the cursor and draws nothing.  So the brackets that close the groups still open at the
end may be left out or written, as many of them as one likes, and the same is built; one more than
there are open groups is refused (`build_append_replicate`).  Cutting tokens off at the end never
makes the operand check fail, so the same holds of parsing.

In a source text the brackets at its end are the tokens at its end: behind them, as behind a number
or a name, a text may just as well end (`tokenize_of_sublist`).
-/

namespace PrefixCalc
namespace Sketch

variable {limit k : Nat} {sketch : Sketch} {tokens : List Token}

/-! ## Brackets behind the tokens -/

/-- As long as groups are open they can be closed, and nothing is drawn by it. -/
theorem exists_walk_replicate (limit : Nat) (h : k ≤ sketch.owners.length) :
    ∃ next, sketch.walk limit (List.replicate k .closing) = .ok next ∧
      next.drafts = sketch.drafts := by
  induction k generalizing sketch with
  | zero => exact ⟨sketch, rfl, rfl⟩
  | succ k ih =>
    obtain ⟨owner, outer, hOwners⟩ := List.exists_cons_of_length_pos (Nat.zero_lt_of_lt h)
    have hOuter : k ≤ outer.length := by simpa [hOwners] using h
    obtain ⟨next, hWalk, hDrafts⟩ := @ih { sketch with owners := outer, cursor := owner } hOuter
    refine ⟨next, ?_, hDrafts⟩
    rw [List.replicate_succ, walk_cons, step, hOwners]
    exact hWalk

/-- One bracket more than there are open groups is refused. -/
theorem walk_replicate_of_lt (h : sketch.owners.length < k) :
    sketch.walk limit (List.replicate k .closing) = .error .unbalanced := by
  induction k generalizing sketch with
  | zero => exact absurd h (Nat.not_lt_zero _)
  | succ k ih =>
    rw [List.replicate_succ, walk_cons, step]
    cases hOwners : sketch.owners with
    | nil => rfl
    | cons owner outer =>
      have hOuter : outer.length < k := by simpa [hOwners] using h
      exact @ih { sketch with owners := outer, cursor := owner } hOuter

/-- Drawing goes on where it has stopped. -/
theorem draw_append (h : draw limit tokens = .ok sketch) (more : List Token) :
    draw limit (tokens ++ more) = sketch.walk limit more := by
  obtain ⟨first, rest, rfl, hWalk⟩ := exists_walk_of_draw h
  rw [List.cons_append, draw, walk_append, hWalk]
  rfl

/-- What can be drawn with more tokens behind can be drawn without them. -/
theorem exists_draw_of_append {more : List Token} {final : Sketch} (hTokens : tokens ≠ [])
    (h : draw limit (tokens ++ more) = .ok final) : ∃ sketch, draw limit tokens = .ok sketch := by
  cases tokens with
  | nil => exact absurd rfl hTokens
  | cons first tokens =>
    rw [List.cons_append, draw, walk_append] at h
    obtain ⟨sketch, hWalk, -⟩ := bind_eq_ok_iff.1 h
    exact ⟨sketch, hWalk⟩

theorem build_of_draw (h : draw limit tokens = .ok sketch) :
    build limit tokens = sketch.toExpr.mapError fun fault => .malformed fault.details := by
  rw [build, h]

/-- Brackets behind the tokens change nothing until they outnumber the open groups. -/
theorem build_append_replicate (h : draw limit tokens = .ok sketch) (k : Nat) :
    build limit (tokens ++ List.replicate k .closing) =
      if k ≤ sketch.owners.length then build limit tokens else .error .unbalanced := by
  split
  · next hOpen =>
    obtain ⟨next, hWalk, hDrafts⟩ := exists_walk_replicate limit hOpen
    have hExpr : next.toExpr = sketch.toExpr := by rw [toExpr, toExpr, hDrafts]
    rw [build_of_draw ((draw_append h _).trans hWalk), build_of_draw h, hExpr]
  · next hFull =>
    rw [build, draw_append h, walk_replicate_of_lt (Nat.lt_of_not_le hFull)]

/-- If what the tokens draw is read at all, to an expression or to a fault, then they draw
something. -/
theorem exists_draw_of_outcome (h : (∃ e, build limit tokens = .ok e) ∨
    ∃ details, build limit tokens = .error (.malformed details)) :
    ∃ sketch, draw limit tokens = .ok sketch := by
  cases tokens with
  | nil => simp [build, draw] at h
  | cons first tokens =>
    rw [build, draw_eq] at h
    rw [draw_eq]
    split_ifs at h ⊢ with hDeep
    · simp at h
    · cases hFinal : Token.finalHeight? 0 tokens with
      | none => simp [hFinal] at h
      | some final => exact ⟨_, rfl⟩

/-- Brackets alone make no expression. -/
theorem build_replicate_ne_ok (limit k : Nat) (e : Expr) :
    build limit (List.replicate k .closing) ≠ .ok e := by
  cases k with
  | zero => exact fun h => nomatch h
  | succ k =>
    have hFirst : draw limit [.closing] = .ok (start .closing) := rfl
    have hBuild := build_append_replicate hFirst k
    rw [List.replicate_succ, ← List.singleton_append, hBuild]
    split
    · exact fun h => nomatch h
    · exact fun h => nomatch h

/-- An expression that is built with brackets at the end is built without them. -/
theorem build_of_append_replicate {e : Expr}
    (h : build limit (tokens ++ List.replicate k .closing) = .ok e) :
    build limit tokens = .ok e := by
  have hTokens : tokens ≠ [] := by
    rintro rfl
    exact build_replicate_ne_ok limit k e h
  obtain ⟨final, hFinal, -⟩ := exists_draw_of_build h
  obtain ⟨sketch, hDraw⟩ := exists_draw_of_append hTokens hFinal
  rw [build_append_replicate hDraw] at h
  split at h
  · exact h
  · exact nomatch h

end Sketch

namespace Token

/-- The operand check that passes a list has passed its first tokens before. -/
theorem checkOperandCounts_of_append {tokens more : List Token}
    (h : checkOperandCounts (tokens ++ more) = .ok ()) : checkOperandCounts tokens = .ok () := by
  rw [checkOperandCounts, List.foldlM_append] at h
  obtain ⟨final, hRun, -⟩ := map_eq_ok_iff.1 h
  obtain ⟨pending, hBefore, -⟩ := bind_eq_ok_iff.1 hRun
  rw [checkOperandCounts, hBefore]
  rfl

end Token

/-- Parsing succeeds if the operand check and the building do. -/
theorem parse_eq_ok_iff {limit : Nat} {tokens : List Token} {e : Expr} :
    parse limit tokens = .ok e ↔
      Token.checkOperandCounts tokens = .ok () ∧ Sketch.build limit tokens = .ok e := by
  rw [parse]
  rcases Token.checkOperandCounts_cases tokens with hCounts | hCounts <;> simp [hCounts]

/-- An expression that is parsed with brackets at the end is parsed without them. -/
theorem parse_of_append_replicate {limit k : Nat} {tokens : List Token} {e : Expr}
    (h : parse limit (tokens ++ List.replicate k .closing) = .ok e) : parse limit tokens = .ok e := by
  obtain ⟨hCounts, hBuild⟩ := parse_eq_ok_iff.1 h
  exact parse_eq_ok_iff.2
    ⟨Token.checkOperandCounts_of_append hCounts, Sketch.build_of_append_replicate hBuild⟩

/-! ## Brackets at the end of a text -/

namespace Token

variable {tokens : List Token} {text tail kept : List Char} {c : Char}

/-- A character that may stand behind an expression: a blank or a `)`. -/
def IsTrailing (c : Char) : Prop :=
  Text.isBlank c = true ∨ c = ')'

instance (c : Char) : Decidable (IsTrailing c) :=
  inferInstanceAs (Decidable (_ ∨ _))

/-- Among legible tokens only `)` is written with such a character. -/
theorem eq_closing_of_mem_spelling {token : Token} (hLegible : token.Legible)
    (hMem : c ∈ token.spelling.toList) (h : IsTrailing c) : token = closing ∧ c = ')' := by
  cases token with
  | keyword word =>
    exfalso
    have hAlpha := word.isAlpha_of_mem_spelling c hMem
    rcases h with hBlank | rfl
    · rw [Text.isBlank_of_isAlphanum (Text.isAlphanum_of_isAlpha hAlpha)] at hBlank
      exact Bool.false_ne_true hBlank
    · exact absurd hAlpha (by decide)
  | number _ | var _ =>
    exfalso
    have hWord := isWordChar_of_mem_spelling rfl hLegible c hMem
    rcases h with hBlank | hClosing
    · rw [hWord.not_isBlank] at hBlank
      exact Bool.false_ne_true hBlank
    · exact hWord.not_mark.2.2 hClosing
  | comma =>
    obtain rfl : c = ',' := by simpa [spelling] using hMem
    exact absurd h (by decide)
  | opening =>
    obtain rfl : c = '(' := by simpa [spelling] using hMem
    exact absurd h (by decide)
  | closing => exact ⟨rfl, by simpa [spelling] using hMem⟩

/-- Without any text there are no tokens. -/
theorem Spells.eq_nil_of_nil (h : Spells tokens text) (hText : text = [])
    (hLegible : ∀ token ∈ tokens, token.Legible) : tokens = [] := by
  cases h with
  | nil _ => rfl
  | @cons gap token tokens rest _ _ =>
    obtain ⟨c, others, hSpelling, -⟩ := exists_spelling_eq_cons (hLegible token List.mem_cons_self)
    simp [hSpelling] at hText

/-- The last character of a written form, if it is a blank or a `)`, is a blank behind the tokens or
the last of the tokens. -/
theorem Spells.exists_of_concat (h : Spells tokens (text ++ [c]))
    (hLegible : ∀ token ∈ tokens, token.Legible) (hLast : IsTrailing c) :
    ∃ before, Spells before text ∧ tokens = before ++ List.replicate ([c].count ')') closing := by
  generalize hText : text ++ [c] = whole at h
  induction h generalizing text with
  | @nil gap hGap =>
    subst hText
    have hParts := Text.isGap_append.1 hGap
    have hNot : c ≠ ')' := by
      rintro rfl
      exact absurd (hParts.2 ')' List.mem_cons_self) (by decide)
    exact ⟨[], .nil hParts.1, by simp [hNot]⟩
  | @cons gap token tokens rest hGap hRest ih =>
    obtain ⟨hFirst, hOthers⟩ := List.forall_mem_cons.1 hLegible
    rcases List.eq_nil_or_concat' rest with rfl | ⟨init, last, rfl⟩
    · -- The character belongs to the spelling of the last token.
      obtain rfl := hRest.eq_nil_of_nil rfl hOthers
      obtain ⟨init, last, hSpelling⟩ : ∃ init last, token.spelling.toList = init ++ [last] := by
        obtain ⟨d, others, hSpelling, -⟩ := exists_spelling_eq_cons hFirst
        rcases List.eq_nil_or_concat' token.spelling.toList with hNil | ⟨init, last, hConcat⟩
        · exact absurd (hNil.symm.trans hSpelling) (by simp)
        · exact ⟨init, last, hConcat⟩
      rw [List.append_nil, hSpelling, ← List.append_assoc] at hText
      obtain ⟨rfl, hSame⟩ := List.append_inj' hText rfl
      obtain rfl : c = last := (List.cons.inj hSame).1
      obtain ⟨rfl, rfl⟩ := eq_closing_of_mem_spelling hFirst (by simp [hSpelling]) hLast
      obtain rfl : [] = init := (List.append_inj' (show [] ++ [')'] = init ++ [')'] from hSpelling)
        rfl).1
      exact ⟨[], by simpa using Spells.nil hGap, rfl⟩
    · rw [← List.append_assoc] at hText
      obtain ⟨rfl, hSame⟩ := List.append_inj' hText rfl
      obtain rfl : c = last := (List.cons.inj hSame).1
      obtain ⟨before, hBefore, rfl⟩ := ih hOthers rfl
      exact ⟨token :: before, .cons hGap hBefore, rfl⟩

/-- Blanks and brackets at the end of a written form are the brackets at the end of the tokens. -/
theorem Spells.exists_of_append (h : Spells tokens (text ++ tail))
    (hLegible : ∀ token ∈ tokens, token.Legible) (hTail : ∀ c ∈ tail, IsTrailing c) :
    ∃ before, Spells before text ∧
      tokens = before ++ List.replicate (tail.count ')') closing := by
  induction tail using List.reverseRecOn generalizing tokens with
  | nil => exact ⟨tokens, by simpa using h, by simp⟩
  | append_singleton tail c ih =>
    rw [← List.append_assoc] at h
    obtain ⟨between, hBetween, rfl⟩ :=
      h.exists_of_concat hLegible (hTail c (by simp))
    obtain ⟨before, hBefore, rfl⟩ := ih hBetween
      (fun token hMem => hLegible token (List.mem_append_left _ hMem))
      (fun d hd => hTail d (List.mem_append_left _ hd))
    refine ⟨before, hBefore, ?_⟩
    rw [List.count_append, List.append_assoc, List.replicate_append_replicate]

/-- A text of blanks and brackets is a written form of its brackets. -/
theorem spells_replicate (hTail : ∀ c ∈ tail, IsTrailing c) :
    Spells (List.replicate (tail.count ')') closing) tail := by
  induction tail with
  | nil => exact .nil Text.isGap_nil
  | cons c tail ih =>
    obtain ⟨hFirst, hOthers⟩ := List.forall_mem_cons.1 hTail
    by_cases hClosing : c = ')'
    · subst hClosing
      rw [List.count_cons_self, List.replicate_succ]
      exact (ih hOthers).cons_append
    · rw [List.count_cons_of_ne (fun h => hClosing h)]
      have hGap : Text.IsGap [c] := by
        intro d hd
        rw [List.mem_singleton.1 hd]
        exact hFirst.resolve_right hClosing
      exact (ih hOthers).gap_append hGap

/-- Leaving out some of the blanks and brackets at the end of a source text leaves out brackets at
the end of its tokens. -/
theorem tokenize_of_sublist {source : String} (h : tokenize source = .ok tokens)
    (hText : source.toList = text ++ tail) (hTail : ∀ c ∈ tail, IsTrailing c)
    (hKept : kept.Sublist tail) :
    ∃ fewer missing, tokenize (String.ofList (text ++ kept)) = .ok fewer ∧
      tokens = fewer ++ List.replicate missing closing := by
  obtain ⟨hLegible, hSeparated, hSpells⟩ := readAll_eq_ok_iff.1 h
  rw [hText] at hSpells
  obtain ⟨before, hBefore, rfl⟩ := hSpells.exists_of_append hLegible hTail
  obtain ⟨missing, hMissing⟩ := Nat.exists_eq_add_of_le (hKept.count_le ')')
  rw [hMissing, ← List.replicate_append_replicate, ← List.append_assoc] at hLegible hSeparated
  refine ⟨before ++ List.replicate (kept.count ')') closing, missing, ?_, ?_⟩
  · rw [tokenize, String.toList_ofList]
    refine readAll_of_spells ?_ hSeparated.left_of_append ?_
    · exact fun token hMem => hLegible token (List.mem_append_left _ hMem)
    · exact hBefore.append (spells_replicate fun c hc => hTail c (hKept.subset hc))
  · rw [hMissing, ← List.replicate_append_replicate, List.append_assoc]

end Token

/-- What comes to an evaluation has been parsed. -/
theorem exists_parse_of_evaluate {limit : Nat} {source : String}
    (h : (∃ value, evaluate limit source = .ok value) ∨
      ∃ error, evaluate limit source = .error (.eval error)) :
    ∃ tokens e, Token.tokenize source = .ok tokens ∧ parse limit tokens = .ok e := by
  cases hTokens : Token.tokenize source with
  | error error => simp [evaluate_of_tokenize_error limit hTokens] at h
  | ok tokens =>
    rw [evaluate_of_tokenize limit hTokens] at h
    cases hParse : parse limit tokens with
    | error error => simp [hParse, conclude] at h
    | ok e => exact ⟨tokens, e, rfl, hParse⟩

/-- Brackets that are missing at the end, or written there for the groups still open, change
nothing.  Behind tokens whose sketch is read, be it to an expression or to a fault, `k` times `)`
gives the same as long as there are `k` open groups, and from there on a lack of balance.  In a
source text that has been parsed, any of the `)` at its end may be left out, and so may the blanks
among them: the text has the same value or the same error of evaluation. -/
theorem build_append_closings (limit : Nat) :
    (∀ tokens, ((∃ e, Sketch.build limit tokens = .ok e) ∨
        ∃ details, Sketch.build limit tokens = .error (.malformed details)) →
      ∃ sketch, Sketch.draw limit tokens = .ok sketch ∧ ∀ k,
        (k ≤ sketch.owners.length →
          Sketch.build limit (tokens ++ List.replicate k .closing) = Sketch.build limit tokens) ∧
        (sketch.owners.length < k →
          Sketch.build limit (tokens ++ List.replicate k .closing) = .error .unbalanced)) ∧
    ∀ (source : String) (text tail kept : List Char), source.toList = text ++ tail →
      (∀ c ∈ tail, Text.isBlank c = true ∨ c = ')') → kept.Sublist tail →
      ((∃ value, evaluate limit source = .ok value) ∨
        ∃ error, evaluate limit source = .error (.eval error)) →
      evaluate limit (String.ofList (text ++ kept)) = evaluate limit source := by
  constructor
  · intro tokens hOutcome
    obtain ⟨sketch, hDraw⟩ := Sketch.exists_draw_of_outcome hOutcome
    refine ⟨sketch, hDraw, fun k => ⟨fun hOpen => ?_, fun hFull => ?_⟩⟩
    · rw [Sketch.build_append_replicate hDraw, if_pos hOpen]
    · rw [Sketch.build_append_replicate hDraw, if_neg (Nat.not_le.2 hFull)]
  · intro source text tail kept hText hTail hKept hPassed
    obtain ⟨tokens, e, hTokens, hParse⟩ := exists_parse_of_evaluate hPassed
    obtain ⟨fewer, missing, hFewer, rfl⟩ := Token.tokenize_of_sublist hTokens hText hTail hKept
    rw [evaluate_of_tokenize limit hFewer, evaluate_of_tokenize limit hTokens, hParse,
      parse_of_append_replicate hParse]

/-- Two open groups: two brackets may follow and not three, and of the brackets of the text none is
needed. -/
theorem evaluate_open_calls :
    let tokens := [Token.keyword (.op .add), .opening, .number 1, .comma, .keyword (.op .mul),
      .opening, .number 2, .comma, .number 3]
    let e := Expr.op .add (.number 1) (.op .mul (.number 2) (.number 3))
    Sketch.build 2 tokens = .ok e ∧
      (∀ k, k ≤ 2 → Sketch.build 2 (tokens ++ List.replicate k .closing) = .ok e) ∧
      (∀ k, 2 < k → Sketch.build 2 (tokens ++ List.replicate k .closing) = .error .unbalanced) ∧
      evaluate 2 "add(1, mul(2, 3) )" = .ok 7 ∧ evaluate 2 "add(1, mul(2, 3 )" = .ok 7 ∧
      evaluate 2 "add(1, mul(2, 3" = .ok 7 := by
  intro tokens e
  have hBuild : Sketch.build 2 tokens = .ok e := by decide
  obtain ⟨hBehind, hSource⟩ := build_append_closings 2
  obtain ⟨sketch, hDraw, hClosings⟩ := hBehind tokens (Or.inl ⟨e, hBuild⟩)
  have hOpen : sketch.owners.length = 2 := by
    have hKnown : (Sketch.draw 2 tokens).map (fun drawn => drawn.owners.length) = .ok 2 := by decide
    rw [hDraw] at hKnown
    exact Except.ok.inj hKnown
  have hTokens : Token.tokenize "add(1, mul(2, 3) )" = .ok (tokens ++ [.closing, .closing]) := by
    cbv
  have hValue : evaluate 2 "add(1, mul(2, 3) )" = .ok 7 := by
    rw [evaluate_of_tokenize 2 hTokens]
    decide
  have hEnd : ∀ c ∈ [')', ' ', ')'], Text.isBlank c = true ∨ c = ')' := by
    simp only [List.mem_cons, List.not_mem_nil, or_false]
    rintro c (rfl | rfl | rfl)
    · exact Or.inr rfl
    · exact Or.inl (by decide)
    · exact Or.inr rfl
  have hEvaluate := fun kept hKept => hSource "add(1, mul(2, 3) )" "add(1, mul(2, 3".toList
    [')', ' ', ')'] kept (by decide) hEnd hKept (Or.inl ⟨7, hValue⟩)
  refine ⟨hBuild, fun k hk => ?_, fun k hk => ?_, hValue, ?_, ?_⟩
  · rw [(hClosings k).1 (hOpen ▸ hk), hBuild]
  · exact (hClosings k).2 (hOpen ▸ hk)
  · exact (hEvaluate [' ', ')'] (by decide)).trans hValue
  · exact (hEvaluate [] (List.nil_sublist _)).trans hValue

end PrefixCalc
