import PrefixCalc.Proofs.Evaluate.Failure
import PrefixCalc.Proofs.Sketch.Balance

/-!
# Stray marks

A `)` or `,` is stray when no group is open in front of it, that is, when the tokens before it hold
no more `(` than `)`, the first token included.  A stray mark behind the first place always stops
the walk, or the walk has stopped before it (`build_of_strayAt_tail`).

The first place is different.  The token there is not walked, it only lends its keyword to the root,
and a mark has none to lend: a `)` or `,` in front of a text is read as `(` would be there
(`build_congr`).  So a stray mark in the first place goes unnoticed, and a `)` there spoils the count
of those that come after it.
-/

namespace PrefixCalc
namespace Token

variable {limit height i : Nat} {tokens : List Token}

/-- At place `i` stands a `)` or `,`, and no group is open in front of it. -/
def StrayAt (tokens : List Token) (i : Nat) : Prop :=
  (tokens[i]? = some closing ∨ tokens[i]? = some comma) ∧ balance (tokens.take i) ≤ 0

instance (tokens : List Token) (i : Nat) : Decidable (StrayAt tokens i) :=
  inferInstanceAs (Decidable (_ ∧ _))

theorem Inoffensive.take {height : Int} (h : Inoffensive limit height tokens) (i : Nat) :
    Inoffensive limit height (tokens.take i) := by
  intro j token hToken
  obtain ⟨hPlace, hToken⟩ : j < i ∧ tokens[j]? = some token := by
    simpa [List.getElem?_take, Option.mem_def] using hToken
  rw [List.take_take, Nat.min_eq_left hPlace.le]
  exact h j token hToken

/-- Where no token offends, some group is open in front of every `)` and `,`. -/
theorem Inoffensive.balance_pos (h : Inoffensive limit height tokens) (hRoom : height ≤ limit)
    (hMark : tokens[i]? = some closing ∨ tokens[i]? = some comma) :
    0 < height + balance (tokens.take i) := by
  -- The balance in front of the mark is a number of open groups, and the mark forbids it to be zero.
  obtain ⟨final, -, hFinal, -⟩ := exists_foldlM_openGroups hRoom (h.take i)
  have hSome : height + balance (tokens.take i) ≠ 0 := by
    rcases hMark with hMark | hMark
    · exact h i closing hMark
    · exact h i comma hMark
  omega

end Token

namespace Sketch

variable {limit i : Nat} {first other : Token} {tokens : List Token}

/-- Of the first token only the keyword counts. -/
theorem build_congr (limit : Nat) (tokens : List Token) (h : first.keyword? = other.keyword?) :
    build limit (first :: tokens) = build limit (other :: tokens) := by
  have hStart : start first = start other := by rw [start, start, h]
  rw [build_cons, build_cons, hStart]

/-- A `)` or `,` behind the first token is refused, or something before it is, if the tokens between
leave no group open for it. -/
theorem build_of_strayAt_tail (limit : Nat) (first : Token) (h : Token.StrayAt tokens i) :
    build limit (first :: tokens) = .error .unbalanced ∨
      build limit (first :: tokens) = .error (.tooDeep limit) := by
  obtain ⟨hMark, hBalance⟩ := h
  have hOffends : ∃ j, OffendsAt limit (first :: tokens) j := by
    by_contra hNone
    have hInoffensive : Token.Inoffensive limit (0 : Nat) tokens :=
      inoffensive_of_not_offendsAt fun j hOffends => hNone ⟨j, hOffends⟩
    have hPos := hInoffensive.balance_pos (Nat.zero_le limit) hMark
    rw [Int.natCast_zero, Int.zero_add] at hPos
    exact absurd hBalance (Int.not_le.2 hPos)
  -- The first offence decides, wherever the mark stands.
  obtain ⟨place, hPlace⟩ : ∃ place, Nat.find hOffends = place + 1 :=
    Nat.exists_eq_add_one.2 (Nat.find_spec hOffends).1
  obtain ⟨token, -, hBuild⟩ := build_of_offendsAt (hPlace ▸ Nat.find_spec hOffends)
    fun j hj => Nat.find_min hOffends (hPlace ▸ hj)
  rw [hBuild, Token.complaint]
  split
  · exact Or.inr rfl
  · exact Or.inl rfl

/-- If the first token is no `)`, it opens at most a group of which the walk does not know, so the
mark is no less stray behind it. -/
theorem balance_tail_le (hFirst : first ≠ .closing)
    (h : Token.balance ((first :: tokens).take (i + 1)) ≤ 0) :
    Token.balance (tokens.take i) ≤ 0 := by
  have hHead : 0 ≤ Token.balance [first] := by
    cases first with
    | closing => exact absurd rfl hFirst
    | keyword _ | number _ | var _ | comma | opening => simp [Token.balance]
  rw [List.take_succ_cons, Token.balance_cons] at h
  omega

end Sketch

/-- Tokens of which nothing can be built cannot be parsed either. -/
theorem exists_parse_error_of_build {limit : Nat} {tokens : List Token} {error : ParseError}
    (h : Sketch.build limit tokens = .error error) : ∃ error, parse limit tokens = .error error := by
  rw [parse]
  cases Token.checkOperandCounts tokens with
  | error other => exact ⟨other, rfl⟩
  | ok _ => exact ⟨error, h⟩

/-- The tokens are refused while they are drawn, and so is every text that has them. -/
structure Refused (limit : Nat) (tokens : List Token) : Prop where
  build : Sketch.build limit tokens = .error .unbalanced ∨
    Sketch.build limit tokens = .error (.tooDeep limit)
  parse : ∃ error, parse limit tokens = .error error
  evaluate : ∀ source, Token.tokenize source = .ok tokens →
    ∃ error, evaluate limit source = .error (.parse error)

theorem Refused.of_build {limit : Nat} {tokens : List Token}
    (h : Sketch.build limit tokens = .error .unbalanced ∨
      Sketch.build limit tokens = .error (.tooDeep limit)) : Refused limit tokens := by
  obtain ⟨error, hParse⟩ : ∃ error, PrefixCalc.parse limit tokens = .error error := by
    rcases h with hBuild | hBuild <;> exact exists_parse_error_of_build hBuild
  refine ⟨h, ⟨error, hParse⟩, fun source hTokens => ⟨error, ?_⟩⟩
  exact evaluate_eq_parse_iff.2 ⟨_, hTokens, hParse⟩

/-- A stray `)` or `,` makes building, parsing and evaluating fail wherever it stands, provided the
first token is neither `)` nor `,`.  Whatever the first token is, they fail when the tokens between
it and a `)` or `,` leave no group open.  In the first place itself a `)` or `,` is not noticed:
what is built behind it is what is built behind a `(`. -/
theorem build_of_strayAt (limit : Nat) (first : Token) (tokens : List Token) :
    (first ≠ .closing → first ≠ .comma →
      ∀ i, Token.StrayAt (first :: tokens) i → Refused limit (first :: tokens)) ∧
    (∀ i, Token.StrayAt tokens i → Refused limit (first :: tokens)) ∧
    (first = .closing ∨ first = .comma →
      Sketch.build limit (first :: tokens) = Sketch.build limit (.opening :: tokens)) := by
  refine ⟨?anywhere, ?behind, ?front⟩
  case anywhere =>
    intro hClosing hComma i hStray
    obtain ⟨hMark, hBalance⟩ := hStray
    cases i with
    | zero =>
      rcases hMark with hMark | hMark
      · exact absurd (Option.some.inj hMark) hClosing
      · exact absurd (Option.some.inj hMark) hComma
    | succ i =>
      have hTail : Token.StrayAt tokens i := ⟨hMark, Sketch.balance_tail_le hClosing hBalance⟩
      exact .of_build (Sketch.build_of_strayAt_tail limit first hTail)
  case behind =>
    exact fun i hStray => .of_build (Sketch.build_of_strayAt_tail limit first hStray)
  case front =>
    rintro (rfl | rfl)
    · exact Sketch.build_congr limit tokens rfl
    · exact Sketch.build_congr limit tokens rfl

/-- `x, 1` and `add(1), 2`: a comma outside every group, in the second text behind a group that has
been closed.  `), 1`: a `)` in the first place opens no group for the comma behind it. -/
theorem build_stray_comma :
    let bare := [Token.var "x", .comma, .number 1]
    let behind := [Token.keyword (.op .add), .opening, .number 1, .closing, .comma, .number 2]
    let closed := [Token.comma, .number 1]
    Token.StrayAt bare 1 ∧ Token.StrayAt behind 4 ∧ Token.StrayAt closed 0 ∧
      (∃ error, evaluate 3 "x, 1" = .error (.parse error)) ∧
      (∃ error, evaluate 3 "add(1), 2" = .error (.parse error)) ∧
      (∃ error, evaluate 3 "), 1" = .error (.parse error)) ∧
      Sketch.build 3 (.closing :: closed) = Sketch.build 3 (.opening :: closed) := by
  intro bare behind closed
  have hBare : Token.StrayAt bare 1 := by decide
  have hBehind : Token.StrayAt behind 4 := by decide
  have hClosed : Token.StrayAt closed 0 := by decide
  have hRefusedBare := (build_of_strayAt 3 _ _).1 (by decide) (by decide) 1 hBare
  have hRefusedBehind := (build_of_strayAt 3 _ _).1 (by decide) (by decide) 4 hBehind
  obtain ⟨-, hTail, hFront⟩ := build_of_strayAt 3 .closing closed
  exact ⟨hBare, hBehind, hClosed, hRefusedBare.evaluate "x, 1" (by cbv),
    hRefusedBehind.evaluate "add(1), 2" (by cbv), (hTail 0 hClosed).evaluate "), 1" (by cbv),
    hFront (.inl rfl)⟩

/-- A `)` in front of a call is stray and is not noticed, and neither is the comma of the call, which
the tokens before it do not account for either. -/
theorem evaluate_closing_in_front :
    let tokens := [Token.closing, .keyword (.op .add), .opening, .number 1, .comma, .number 2,
      .closing]
    let e := Expr.op .add (.number 1) (.number 2)
    Token.StrayAt tokens 0 ∧ Token.StrayAt tokens 4 ∧ Sketch.build 1 tokens = .ok e ∧
      parse 1 tokens = .ok e ∧ Token.tokenize ") add(1, 2)" = .ok tokens ∧
      evaluate 1 ") add(1, 2)" = .ok 3 := by
  intro tokens e
  have hTokens : Token.tokenize ") add(1, 2)" = .ok tokens := by cbv
  refine ⟨by decide, by decide, by decide, by decide, hTokens, ?_⟩
  rw [evaluate_of_tokenize 1 hTokens]
  decide

end PrefixCalc
