import PrefixCalc.Proofs.Sketch.Peak

/-!
# Balance

How many groups are open is read off the tokens: the number of `(` less the number of `)` among
those that have been walked (`Token.balance`).  A token offends when it may not come at the balance
before it, a `(` at the limit and a `)` or `,` at zero.  A walk over tokens of which none offends
goes to its end, and an offending token stops it there and then, whatever comes later.  So the first
offence decides how building fails, and without an offence the limit has no part in what is built.

The first token is not walked, so it cannot offend and its brackets do not count.

Main statement: `build_eq_of_offences`.
-/

namespace PrefixCalc
namespace Token

/-- The number of `(` less the number of `)`. -/
def balance (tokens : List Token) : Int :=
  (tokens.count opening : Int) - tokens.count closing

/-- The token may not come when so many groups are open. -/
def Offends (limit : Nat) (height : Int) : Token → Prop
  | opening => height = limit
  | comma => height = 0
  | closing => height = 0
  | _ => False

instance (limit : Nat) (height : Int) : (token : Token) → Decidable (Offends limit height token)
  | opening => inferInstanceAs (Decidable (height = limit))
  | comma => inferInstanceAs (Decidable (height = 0))
  | closing => inferInstanceAs (Decidable (height = 0))
  | keyword _ | number _ | var _ => inferInstanceAs (Decidable False)

/-- How an offending token is reported. -/
def complaint (limit : Nat) (token : Token) : ParseError :=
  if token = opening then .tooDeep limit else .unbalanced

/-- None of the tokens offends when so many groups are open before them. -/
def Inoffensive (limit : Nat) (height : Int) (tokens : List Token) : Prop :=
  ∀ i, ∀ token ∈ tokens[i]?, ¬ Offends limit (height + balance (tokens.take i)) token

variable {limit height : Nat} {token : Token} {tokens : List Token}

theorem balance_cons (token : Token) (tokens : List Token) :
    balance (token :: tokens) = balance [token] + balance tokens := by
  simp only [balance, List.count_cons, List.count_nil]
  omega

theorem inoffensive_cons {height : Int} :
    Inoffensive limit height (token :: tokens) ↔
      ¬ Offends limit height token ∧ Inoffensive limit (height + balance [token]) tokens := by
  have hHead : height + balance ((token :: tokens).take 0) = height := Int.add_zero height
  have hTail : ∀ i, height + balance ((token :: tokens).take (i + 1)) =
      height + balance [token] + balance (tokens.take i) := by
    intro i
    rw [List.take_succ_cons, balance_cons, Int.add_assoc]
  constructor
  · intro h
    refine ⟨?_, fun i next hNext => ?_⟩
    · rw [← hHead]
      exact h 0 token rfl
    · rw [← hTail i]
      exact h (i + 1) next hNext
  · rintro ⟨hFirst, hRest⟩ i next hNext
    cases i with
    | zero =>
      obtain rfl : token = next := Option.some.inj hNext
      rwa [hHead]
    | succ i =>
      rw [hTail i]
      exact hRest i next hNext

/-- An offending token is refused. -/
theorem openGroups_of_offends (h : Offends limit height token) :
    openGroups limit height token = .error (complaint limit token) := by
  cases token with
  | keyword _ | number _ | var _ => exact absurd h id
  | opening =>
    have hFull : height = limit := Int.ofNat_inj.1 h
    rw [openGroups, if_pos hFull.ge]
    rfl
  | comma | closing =>
    have hNone : height = 0 := Int.ofNat_inj.1 h
    rw [openGroups, if_pos hNone]
    rfl

/-- Any other token is taken, and the groups open change with the balance. -/
theorem exists_openGroups_of_not_offends (hRoom : height ≤ limit)
    (h : ¬ Offends limit height token) :
    ∃ next, openGroups limit height token = .ok next ∧
      (next : Int) = height + balance [token] ∧ next ≤ limit := by
  cases token with
  | keyword _ | number _ | var _ => exact ⟨height, rfl, (Int.add_zero _).symm, hRoom⟩
  | opening =>
    have hOpen : height ≠ limit := fun hFull => h (congrArg Nat.cast hFull)
    refine ⟨height + 1, ?_, Int.natCast_succ height, by omega⟩
    rw [openGroups, if_neg (by omega)]
  | comma =>
    have hSome : height ≠ 0 := fun hNone => h (congrArg Nat.cast hNone)
    exact ⟨height, if_neg hSome, (Int.add_zero _).symm, hRoom⟩
  | closing =>
    have hSome : height ≠ 0 := fun hNone => h (congrArg Nat.cast hNone)
    have hBalance : balance [closing] = -1 := by decide
    exact ⟨height - 1, if_neg hSome, by omega, by omega⟩

/-- Where no token offends, the count of open groups goes to its end and is the balance. -/
theorem exists_foldlM_openGroups (hRoom : height ≤ limit) (h : Inoffensive limit height tokens) :
    ∃ final : Nat, tokens.foldlM (openGroups limit) height = .ok final ∧
      (final : Int) = height + balance tokens ∧ final ≤ limit := by
  induction tokens generalizing height with
  | nil => exact ⟨height, rfl, (Int.add_zero _).symm, hRoom⟩
  | cons token tokens ih =>
    obtain ⟨hFirst, hRest⟩ := inoffensive_cons.1 h
    obtain ⟨next, hStep, hNext, hNextRoom⟩ := exists_openGroups_of_not_offends hRoom hFirst
    rw [← hNext] at hRest
    obtain ⟨final, hRun, hFinal, hFinalRoom⟩ := ih hNextRoom hRest
    refine ⟨final, ?_, ?_, hFinalRoom⟩
    · rw [List.foldlM_cons, hStep]
      exact hRun
    · rw [hFinal, hNext, balance_cons token tokens, Int.add_assoc]

/-- The first token that offends ends the count. -/
theorem foldlM_openGroups_of_offends {before after : List Token} (hRoom : height ≤ limit)
    (hBefore : Inoffensive limit height before)
    (h : Offends limit (height + balance before) token) :
    (before ++ token :: after).foldlM (openGroups limit) height =
      .error (complaint limit token) := by
  obtain ⟨here, hRun, hHere, -⟩ := exists_foldlM_openGroups hRoom hBefore
  rw [← hHere] at h
  rw [List.foldlM_append, hRun]
  show (token :: after).foldlM (openGroups limit) here = _
  rw [List.foldlM_cons, openGroups_of_offends h]
  rfl

end Token

namespace Sketch

variable {limit : Nat} {first : Token} {tokens : List Token}

/-- The token at place `i` is walked and offends. -/
def OffendsAt (limit : Nat) (tokens : List Token) (i : Nat) : Prop :=
  0 < i ∧ ∃ token ∈ tokens[i]?,
    Token.Offends limit (Token.balance ((tokens.take i).drop 1)) token

instance (limit : Nat) (tokens : List Token) (i : Nat) : Decidable (OffendsAt limit tokens i) :=
  inferInstanceAs (Decidable (_ ∧ _))

theorem offendsAt_succ_iff {i : Nat} :
    OffendsAt limit (first :: tokens) (i + 1) ↔
      ∃ token ∈ tokens[i]?, Token.Offends limit (Token.balance (tokens.take i)) token :=
  and_iff_right (Nat.succ_pos i)

/-- The tokens in front of the first offence do not offend. -/
theorem inoffensive_take {i : Nat} (h : ∀ j < i + 1, ¬ OffendsAt limit (first :: tokens) j) :
    Token.Inoffensive limit 0 (tokens.take i) := by
  intro j token hToken
  obtain ⟨hPlace, hToken⟩ : j < i ∧ tokens[j]? = some token := by
    simpa [List.getElem?_take, Option.mem_def] using hToken
  have hNot := h (j + 1) (by omega)
  rw [offendsAt_succ_iff] at hNot
  rw [List.take_take, Nat.min_eq_left hPlace.le, Int.zero_add]
  exact fun hOffends => hNot ⟨token, hToken, hOffends⟩

theorem inoffensive_of_not_offendsAt (h : ∀ i, ¬ OffendsAt limit (first :: tokens) i) :
    Token.Inoffensive limit 0 tokens := by
  have hTake := inoffensive_take (i := tokens.length) fun j _ => h j
  rwa [List.take_length] at hTake

/-- Building fails where the count of open groups does; otherwise the sketch is read. -/
theorem build_cons (limit : Nat) (first : Token) (tokens : List Token) :
    build limit (first :: tokens) =
      match tokens.foldlM (Token.openGroups limit) 0 with
      | .error error => .error error
      | .ok _ =>
        (tokens.foldl advance (start first)).toExpr.mapError fun fault =>
          .malformed fault.details := by
  have hNone : (start first).owners.length = 0 := rfl
  rw [build, draw, walk_eq, hNone]
  cases tokens.foldlM (Token.openGroups limit) 0 <;> rfl

/-- The first offence is what building reports. -/
theorem build_of_offendsAt {i : Nat} (h : OffendsAt limit (first :: tokens) (i + 1))
    (hFirst : ∀ j < i + 1, ¬ OffendsAt limit (first :: tokens) j) :
    ∃ token ∈ tokens[i]?, build limit (first :: tokens) = .error (Token.complaint limit token) := by
  obtain ⟨token, hToken, hOffends⟩ := offendsAt_succ_iff.1 h
  obtain ⟨hPlace, hGet⟩ := List.getElem?_eq_some_iff.1 hToken
  have hSplit : tokens = tokens.take i ++ token :: tokens.drop (i + 1) := by
    rw [← hGet, List.getElem_cons_drop, List.take_append_drop]
  have hRun : tokens.foldlM (Token.openGroups limit) 0 = .error (Token.complaint limit token) := by
    rw [hSplit]
    refine Token.foldlM_openGroups_of_offends (Nat.zero_le limit) (inoffensive_take hFirst) ?_
    rwa [Int.natCast_zero, Int.zero_add]
  exact ⟨token, hToken, by rw [build_cons, hRun]⟩

/-- Without an offence building comes to the reading of what has been drawn. -/
theorem build_of_not_offendsAt (h : ∀ i, ¬ OffendsAt limit (first :: tokens) i) :
    build limit (first :: tokens) =
      (tokens.foldl advance (start first)).toExpr.mapError fun fault =>
        .malformed fault.details := by
  obtain ⟨final, hRun, -⟩ := Token.exists_foldlM_openGroups (Nat.zero_le limit)
    (inoffensive_of_not_offendsAt h)
  rw [build_cons, hRun]

/-- How building ends, for any tokens and any limit.  It fails for want of a token exactly when
there is none.  The first offence alone decides between too deep a nesting and a lack of balance.
Where no token offends there is an expression or a fault of the drawing, the same under every limit
under which no token offends. -/
theorem build_eq_of_offences (limit : Nat) (tokens : List Token) :
    (build limit tokens = .error .empty ↔ tokens = []) ∧
    (∀ i, OffendsAt limit tokens i → (∀ j < i, ¬ OffendsAt limit tokens j) →
      build limit tokens =
        if tokens[i]? = some .opening then .error (.tooDeep limit) else .error .unbalanced) ∧
    (tokens ≠ [] → ∃ outcome : Except ParseError Expr,
      ((∃ e, outcome = .ok e) ∨ ∃ fault : Fault, outcome = .error (.malformed fault.details)) ∧
      ∀ bound, (∀ i, ¬ OffendsAt bound tokens i) → build bound tokens = outcome) := by
  cases tokens with
  | nil =>
    refine ⟨iff_of_true rfl rfl, ?_, fun h => absurd rfl h⟩
    rintro i ⟨-, token, hToken, -⟩
    exact absurd hToken (by simp)
  | cons first tokens =>
    refine ⟨iff_of_false (build_ne_empty limit first tokens) (List.cons_ne_nil _ _), ?_, ?_⟩
    · intro i hOffends hFirst
      cases i with
      | zero => exact absurd hOffends.1 (Nat.lt_irrefl 0)
      | succ i =>
        obtain ⟨token, hToken, hBuild⟩ := build_of_offendsAt hOffends hFirst
        have hPlace : (first :: tokens)[i + 1]? = some token := hToken
        rw [hBuild, hPlace, Token.complaint]
        simp only [Option.some.injEq]
        split <;> rfl
    · intro _
      refine ⟨_, ?_, fun bound hNone => build_of_not_offendsAt hNone⟩
      cases (tokens.foldl advance (start first)).toExpr with
      | error fault => exact Or.inr ⟨fault, rfl⟩
      | ok e => exact Or.inl ⟨e, rfl⟩

/-- `add(1))(` under limit one: the second `)` is the first offence, and the `(` behind it is never
reached.  Under limit zero it is the first `(`.  In `add(1)` alone nothing offends from limit one
on, and every such limit leaves the root without a value. -/
theorem build_first_offence :
    let call := [Token.keyword (.op .add), .opening, .number 1, .closing]
    let tokens := call ++ [.closing, .opening]
    OffendsAt 1 tokens 4 ∧ build 1 tokens = .error .unbalanced ∧
      OffendsAt 0 tokens 1 ∧ build 0 tokens = .error (.tooDeep 0) ∧
      ∀ limit, 0 < limit → build limit call = .error (.malformed "operand has no value") := by
  intro call tokens
  have hSecond : OffendsAt 1 tokens 4 := by decide
  have hFirst : OffendsAt 0 tokens 1 := by decide
  refine ⟨hSecond, ?_, hFirst, ?_, fun limit hLimit => ?_⟩
  · exact (build_eq_of_offences 1 tokens).2.1 4 hSecond (by decide)
  · exact (build_eq_of_offences 0 tokens).2.1 1 hFirst (by decide)
  · obtain ⟨outcome, -, hOutcome⟩ := (build_eq_of_offences limit call).2.2 (by simp [call])
    have hNone : ∀ bound, 0 < bound → ∀ i, ¬ OffendsAt bound call i := by
      intro bound hBound i hOffends
      obtain ⟨hPlace, token, hToken, hAt⟩ := hOffends
      match i with
      | 0 => exact Nat.lt_irrefl 0 hPlace
      | 1 =>
        obtain rfl : Token.opening = token := Option.some.inj hToken
        have hFull : (0 : Int) = bound := hAt
        omega
      | 2 =>
        obtain rfl : Token.number 1 = token := Option.some.inj hToken
        exact hAt
      | 3 =>
        obtain rfl : Token.closing = token := Option.some.inj hToken
        have hOpen : (1 : Int) = 0 := hAt
        omega
      | i + 4 => exact absurd hToken (by simp [call])
    have hOne : build 1 call = .error (.malformed "operand has no value") := by decide
    rw [hOutcome limit (hNone limit hLimit), ← hOne, hOutcome 1 (hNone 1 Nat.one_pos)]

end Sketch
end PrefixCalc
