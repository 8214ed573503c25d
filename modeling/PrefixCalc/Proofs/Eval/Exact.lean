import PrefixCalc.Proofs.Eval.Unbound

/-!
# Exact arithmetic

The evaluator computes with words that wrap around.  Here it is compared with one that computes with
integers without bound, `evalExact`, whose table holds integers, too.  Wrapping around can be put
off to the end as long as there are no quotients: what is congruent modulo `2 ^ 32` stays so under
sums, differences and products (`preserves_modEq`).  A quotient does not respect congruence, but as
long as no exact result leaves the range of the words the two evaluators do the same
(`preserves_toInt_eq`).  This excludes the one quotient of two words that is no word itself.

Both comparisons are one simulation with two relations between words and integers.  The relation
has to be preserved by the operators that the exact evaluation applies, and by no others
(`matches_evalExact`).
-/

namespace PrefixCalc

/-- The operator applied to two integers.  A quotient loses its fraction. -/
def Operator.applyExact (operator : Operator) (left right : Int) : Except EvalError Int :=
  match operator with
  | add => .ok (left + right)
  | sub => .ok (left - right)
  | mul => .ok (left * right)
  | div => if right = 0 then .error .divisionByZero else .ok (left.tdiv right)

/-- An operator and the integers that it is applied to. -/
structure Application where
  operator : Operator
  left : Int
  right : Int
  deriving DecidableEq, Repr

/-- What the operator gives. -/
def Application.result (a : Application) : Except EvalError Int :=
  a.operator.applyExact a.left a.right

/-- The table with its words read as integers. -/
def Bindings.exact (table : Bindings) : String → Option Int :=
  fun name => (table.get? name).map Int32.toInt

namespace Expr

/-- The value of the expression in integers without bound, or why it has none, and the table
afterwards. -/
def evalExact (e : Expr) (table : String → Option Int) :
    Except EvalError Int × (String → Option Int) :=
  match e with
  | number value => (.ok value.toInt, table)
  | var name =>
    match table name with
    | some value => (.ok value, table)
    | none => (.error (.unbound name), table)
  | op operator left right =>
    match left.evalExact table with
    | (.error error, afterLeft) => (.error error, afterLeft)
    | (.ok l, afterLeft) =>
      match right.evalExact afterLeft with
      | (.error error, afterRight) => (.error error, afterRight)
      | (.ok r, afterRight) => (operator.applyExact l r, afterRight)
  | binding name value body =>
    match value.evalExact table with
    | (.error error, afterValue) => (.error error, afterValue)
    | (.ok v, afterValue) => body.evalExact (Function.update afterValue name (some v))

/-- The operators that the exact evaluation applies, in order, with their operands. -/
def applications (e : Expr) (table : String → Option Int) : List Application :=
  match e with
  | number _ => []
  | var _ => []
  | op operator left right =>
    left.applications table ++
      match left.evalExact table with
      | (.error _, _) => []
      | (.ok l, afterLeft) =>
        right.applications afterLeft ++
          match right.evalExact afterLeft with
          | (.error _, _) => []
          | (.ok r, _) => [⟨operator, l, r⟩]
  | binding name value body =>
    value.applications table ++
      match value.evalExact table with
      | (.error _, _) => []
      | (.ok v, afterValue) => body.applications (Function.update afterValue name (some v))

/-- The results of the operators in the exact evaluation, in order. -/
def exactResults (e : Expr) (table : String → Option Int) : List Int :=
  (e.applications table).filterMap fun a => a.result.toOption

/-- The operators in the expression. -/
def operators : Expr → List Operator
  | number _ => []
  | var _ => []
  | op operator left right => operator :: (left.operators ++ right.operators)
  | binding _ value body => value.operators ++ body.operators

end Expr

/-! ## Words and integers -/

section
variable (R : Int32 → Int → Prop)

/-- The outcomes are values in the relation, or the same error. -/
inductive OutcomesMatch : Except EvalError Int32 → Except EvalError Int → Prop
  | ok {word : Int32} {n : Int} (related : R word n) : OutcomesMatch (.ok word) (.ok n)
  | error (error : EvalError) : OutcomesMatch (.error error) (.error error)

/-- The tables have values in the relation for the same names. -/
def TablesMatch (table : Bindings) (exact : String → Option Int) : Prop :=
  ∀ name, Option.Rel R (table.get? name) (exact name)

/-- Applied to words in the relation to its operands, the operator has a matching outcome. -/
def Preserves (a : Application) : Prop :=
  ∀ l r, R l a.left → R r a.right → OutcomesMatch R (a.operator.apply l r) a.result

end

variable {R : Int32 → Int → Prop}

section
variable {outcome : Except EvalError Int32} {exactOutcome : Except EvalError Int}

theorem OutcomesMatch.exists_ok_iff (h : OutcomesMatch R outcome exactOutcome) :
    (∃ word, outcome = .ok word) ↔ ∃ n, exactOutcome = .ok n := by
  cases h with
  | ok related => simp
  | error error => simp

theorem OutcomesMatch.exists_ok {n : Int} (h : OutcomesMatch R outcome exactOutcome)
    (hExact : exactOutcome = .ok n) : ∃ word, outcome = .ok word ∧ R word n := by
  cases h with
  | @ok word m related => exact ⟨word, rfl, Except.ok.inj hExact ▸ related⟩
  | error error => exact nomatch hExact

theorem OutcomesMatch.error_iff (h : OutcomesMatch R outcome exactOutcome) (error : EvalError) :
    outcome = .error error ↔ exactOutcome = .error error := by
  cases h with
  | ok related => simp
  | error error => simp

end

theorem TablesMatch.bind {table : Bindings} {exact : String → Option Int} {word : Int32} {n : Int}
    (h : TablesMatch R table exact) (hRelated : R word n) (name : String) :
    TablesMatch R (table.bind name word) (Function.update exact name (some n)) := by
  intro other
  by_cases hName : other = name
  · rw [hName, Bindings.get?_bind_self, Function.update_self]
    exact .some hRelated
  · rw [Bindings.get?_bind_of_ne _ _ hName, Function.update_of_ne hName]
    exact h other

theorem tablesMatch_exact (hWord : ∀ word : Int32, R word word.toInt) (table : Bindings) :
    TablesMatch R table table.exact := by
  intro name
  rw [Bindings.exact]
  cases table.get? name with
  | none => exact .none
  | some word => exact .some (hWord word)

namespace Expr

/-- A relation that holds between each word and its integer, and that is preserved by all operators
that the exact evaluation applies, holds between the two evaluations. -/
theorem matches_evalExact (hWord : ∀ word : Int32, R word word.toInt) {e : Expr} {table : Bindings}
    {exact : String → Option Int} (hTable : TablesMatch R table exact)
    (hApply : ∀ a ∈ e.applications exact, Preserves R a) :
    OutcomesMatch R (e.eval table).1 (e.evalExact exact).1 ∧
      TablesMatch R (e.eval table).2 (e.evalExact exact).2 := by
  induction e generalizing table exact with
  | number value => exact ⟨.ok (hWord value), hTable⟩
  | var name =>
    have hName := hTable name
    rw [eval, evalExact]
    generalize table.get? name = found at hName ⊢
    generalize exact name = exactFound at hName ⊢
    cases hName with
    | some hRelated => exact ⟨.ok hRelated, hTable⟩
    | none => exact ⟨.error _, hTable⟩
  | op operator left right ihLeft ihRight =>
    rw [applications] at hApply
    have hLeft := ihLeft hTable fun a hMem => hApply a (List.mem_append_left _ hMem)
    rw [eval, evalExact]
    rcases hWords : left.eval table with ⟨outcome, afterLeft⟩
    rcases hExact : left.evalExact exact with ⟨exactOutcome, exactAfterLeft⟩
    rw [hExact] at hApply
    rw [hWords, hExact] at hLeft
    obtain ⟨hOutcome, hAfterLeft⟩ := hLeft
    cases hOutcome with
    | error error => exact ⟨.error error, hAfterLeft⟩
    | @ok l exactL hL =>
      -- Both left operands have values, so both evaluations go on, on tables that match.
      have hRight := ihRight hAfterLeft fun a hMem =>
        hApply a (List.mem_append_right _ (List.mem_append_left _ hMem))
      simp only
      rcases hWordsRight : right.eval afterLeft with ⟨outcomeRight, afterRight⟩
      rcases hExactRight : right.evalExact exactAfterLeft with ⟨exactOutcomeRight, exactAfterRight⟩
      simp only [hExactRight] at hApply
      rw [hWordsRight, hExactRight] at hRight
      obtain ⟨hOutcomeRight, hAfterRight⟩ := hRight
      cases hOutcomeRight with
      | error error => exact ⟨.error error, hAfterRight⟩
      | @ok r exactR hR =>
        exact ⟨hApply ⟨operator, exactL, exactR⟩ (by simp) l r hL hR, hAfterRight⟩
  | binding name value body ihValue ihBody =>
    rw [applications] at hApply
    have hValue := ihValue hTable fun a hMem => hApply a (List.mem_append_left _ hMem)
    rw [eval, evalExact]
    rcases hWords : value.eval table with ⟨outcome, afterValue⟩
    rcases hExact : value.evalExact exact with ⟨exactOutcome, exactAfterValue⟩
    rw [hExact] at hApply
    rw [hWords, hExact] at hValue
    obtain ⟨hOutcome, hAfterValue⟩ := hValue
    cases hOutcome with
    | error error => exact ⟨.error error, hAfterValue⟩
    | ok hV =>
      exact ihBody (hAfterValue.bind hV name) fun a hMem =>
        hApply a (List.mem_append_right _ hMem)

/-- From one table, read as words and as integers. -/
theorem matches_of_preserves (hWord : ∀ word : Int32, R word word.toInt) {e : Expr}
    {table : Bindings} (hApply : ∀ a ∈ e.applications table.exact, Preserves R a) :
    OutcomesMatch R (e.eval table).1 (e.evalExact table.exact).1 :=
  (matches_evalExact hWord (tablesMatch_exact hWord table) hApply).1

theorem operator_mem_of_mem_applications {e : Expr} {table : String → Option Int} {a : Application}
    (h : a ∈ e.applications table) : a.operator ∈ e.operators := by
  induction e generalizing table with
  | number value => exact absurd h List.not_mem_nil
  | var name => exact absurd h List.not_mem_nil
  | op operator left right ihLeft ihRight =>
    rw [applications, List.mem_append] at h
    rw [operators, List.mem_cons, List.mem_append]
    rcases h with hLeft | hRest
    · exact .inr (.inl (ihLeft hLeft))
    · rcases hExact : left.evalExact table with ⟨error | l, afterLeft⟩
      · simp [hExact] at hRest
      · simp only [hExact, List.mem_append] at hRest
        rcases hRest with hRight | hLast
        · exact .inr (.inr (ihRight hRight))
        · rcases hExactRight : right.evalExact afterLeft with ⟨error | r, afterRight⟩
          · simp [hExactRight] at hLast
          · obtain rfl : a = ⟨operator, l, r⟩ := by simpa [hExactRight] using hLast
            exact .inl rfl
  | binding name value body ihValue ihBody =>
    rw [applications, List.mem_append] at h
    rw [operators, List.mem_append]
    rcases h with hValue | hRest
    · exact .inl (ihValue hValue)
    · rcases hExact : value.evalExact table with ⟨error | v, afterValue⟩
      · simp [hExact] at hRest
      · exact .inr (ihBody (by simpa only [hExact] using hRest))

/-- Only a division divides by zero. -/
theorem div_mem_operators_of_failsAfter {e : Expr} {table : Bindings} {done : List Event}
    (h : e.FailsAfter table done .divisionByZero) : .div ∈ e.operators := by
  generalize hError : EvalError.divisionByZero = error at h
  induction h with
  | unbound absent => exact nomatch hError
  | division evalLeft evalRight => exact List.mem_cons_self
  | left fails ih => exact List.mem_cons_of_mem _ (List.mem_append_left _ (ih hError))
  | right evalLeft fails ih => exact List.mem_cons_of_mem _ (List.mem_append_right _ (ih hError))
  | value fails ih => exact List.mem_append_left _ (ih hError)
  | body evalValue fails ih => exact List.mem_append_right _ (ih hError)

end Expr

/-! ## Congruent words -/

theorem bmod_modEq (n : Int) : n.bmod (2 ^ 32) ≡ n [ZMOD 2 ^ 32] :=
  Int.bmod_emod

/-- A word is determined by what it is congruent to. -/
theorem eq_of_modEq {word other : Int32} (h : word.toInt ≡ other.toInt [ZMOD 2 ^ 32]) :
    word = other := by
  have hLe := word.le_toInt
  have hLt := word.toInt_lt
  have hOtherLe := other.le_toInt
  have hOtherLt := other.toInt_lt
  rw [← Int32.toInt_inj]
  rw [Int.ModEq] at h
  omega

/-- Sums, differences and products respect congruence. -/
theorem preserves_modEq {a : Application} (h : a.operator ≠ .div) :
    Preserves (fun word n => word.toInt ≡ n [ZMOD 2 ^ 32]) a := by
  obtain ⟨operator, left, right⟩ := a
  intro l r hLeft hRight
  cases operator with
  | add => exact .ok (by rw [Int32.toInt_add]; exact (bmod_modEq _).trans (hLeft.add hRight))
  | sub => exact .ok (by rw [Int32.toInt_sub]; exact (bmod_modEq _).trans (hLeft.sub hRight))
  | mul => exact .ok (by rw [Int32.toInt_mul]; exact (bmod_modEq _).trans (hLeft.mul hRight))
  | div => exact absurd rfl h

/-! ## Results in the range of the words -/

theorem bmod_of_mem_Icc {n : Int} (h : n ∈ Set.Icc (-2 ^ 31) (2 ^ 31 - 1)) :
    n.bmod (2 ^ 32) = n := by
  obtain ⟨hLe, hGe⟩ := h
  exact Int.bmod_eq_of_le (by norm_num; omega) (by norm_num; omega)

/-- An operator whose result is in the range of the words gives this result on words, too. -/
theorem preserves_toInt_eq {a : Application}
    (h : ∀ n, a.result = .ok n → n ∈ Set.Icc (-2 ^ 31) (2 ^ 31 - 1)) :
    Preserves (fun word n => word.toInt = n) a := by
  obtain ⟨operator, left, right⟩ := a
  rintro l r rfl rfl
  cases operator with
  | add => exact .ok (by rw [Int32.toInt_add]; exact bmod_of_mem_Icc (h _ rfl))
  | sub => exact .ok (by rw [Int32.toInt_sub]; exact bmod_of_mem_Icc (h _ rfl))
  | mul => exact .ok (by rw [Int32.toInt_mul]; exact bmod_of_mem_Icc (h _ rfl))
  | div =>
    have hZero : r.toInt = 0 ↔ r = 0 := by rw [← Int32.toInt_inj, Int32.toInt_zero]
    rw [Application.result, Operator.applyExact] at h ⊢
    rw [Operator.apply]
    by_cases hr : r = 0
    · rw [if_pos hr, if_pos (hZero.2 hr)]
      exact .error _
    · rw [if_neg hr, if_neg (mt hZero.1 hr)]
      rw [if_neg (mt hZero.1 hr)] at h
      exact .ok (by rw [Int32.toInt_div]; exact bmod_of_mem_Icc (h _ rfl))

/-! ## Expressions -/

namespace Expr

/-- Without a quotient the outcome in words is congruent to the one in integers. -/
theorem matches_modEq {e : Expr} (hDiv : .div ∉ e.operators) (table : Bindings) :
    OutcomesMatch (fun word n => word.toInt ≡ n [ZMOD 2 ^ 32]) (e.eval table).1
      (e.evalExact table.exact).1 := by
  refine matches_of_preserves (fun word => Int.ModEq.refl word.toInt) fun a hMem => ?_
  refine preserves_modEq fun hOperator => hDiv ?_
  rw [← hOperator]
  exact operator_mem_of_mem_applications hMem

/-- With all results in the range of the words the outcome is the same in words as in integers. -/
theorem matches_toInt_eq {e : Expr} {table : Bindings}
    (hRange : ∀ n ∈ e.exactResults table.exact, n ∈ Set.Icc (-2 ^ 31) (2 ^ 31 - 1)) :
    OutcomesMatch (fun word n => word.toInt = n) (e.eval table).1 (e.evalExact table.exact).1 := by
  refine matches_of_preserves (fun word => rfl) fun a hMem => ?_
  refine preserves_toInt_eq fun n hResult => hRange n (List.mem_filterMap.2 ⟨a, hMem, ?_⟩)
  rw [hResult, Except.toOption]

/-- Without a quotient an expression has a value exactly if it has one in integers without bound,
and it is the one word that is congruent to that; if there is none, both evaluations lack a value
for the same name.  With quotients the two values are equal, as long as all results in integers are
in the range of the words, and there is a division by zero exactly if there is one in integers. -/
theorem eval_exact (e : Expr) (table : Bindings) :
    (.div ∉ e.operators →
      ((∃ word, (e.eval table).1 = .ok word) ↔ ∃ n, (e.evalExact table.exact).1 = .ok n) ∧
        (∀ n, (e.evalExact table.exact).1 = .ok n →
          ∃ word, (e.eval table).1 = .ok word ∧ word.toInt ≡ n [ZMOD 2 ^ 32] ∧
            ∀ other : Int32, other.toInt ≡ n [ZMOD 2 ^ 32] → other = word) ∧
        ∀ error, (e.eval table).1 = .error error →
          ∃ name, error = .unbound name ∧ (e.evalExact table.exact).1 = .error (.unbound name)) ∧
      ((∀ n ∈ e.exactResults table.exact, n ∈ Set.Icc (-2 ^ 31) (2 ^ 31 - 1)) →
        (e.eval table).1.map Int32.toInt = (e.evalExact table.exact).1 ∧
          ((e.eval table).1 = .error .divisionByZero ↔
            (e.evalExact table.exact).1 = .error .divisionByZero)) := by
  refine ⟨?noDivision, ?inRange⟩
  case noDivision =>
    intro hDiv
    have hMatches := matches_modEq hDiv table
    refine ⟨hMatches.exists_ok_iff, ?congruent, ?unbound⟩
    case congruent =>
      intro n hExact
      obtain ⟨word, hOutcome, hModEq⟩ := hMatches.exists_ok hExact
      exact ⟨word, hOutcome, hModEq, fun other hOther => eq_of_modEq (hOther.trans hModEq.symm)⟩
    case unbound =>
      intro error hError
      obtain ⟨done, hFails⟩ := (eval_eq_error_iff e table error).1 hError
      cases error with
      | unbound name => exact ⟨name, rfl, (hMatches.error_iff _).1 hError⟩
      | divisionByZero => exact absurd (div_mem_operators_of_failsAfter hFails) hDiv
  case inRange =>
    intro hRange
    have hMatches := matches_toInt_eq hRange
    refine ⟨?_, hMatches.error_iff .divisionByZero⟩
    cases hExact : (e.evalExact table.exact).1 with
    | ok n =>
      obtain ⟨word, hOutcome, rfl⟩ := hMatches.exists_ok hExact
      rw [hOutcome, Except.map]
    | error error => rw [(hMatches.error_iff error).2 hExact, Except.map]

/-- A bound product that wraps around, a name without a value, quotients at the lower end of the
range of the words, and a division by zero. -/
theorem eval_exact_at_limits :
    let table := Bindings.empty.bind "y" (-2147483648)
    let wrapping := binding "x" (op .mul (number 65536) (number 65537))
      (op .sub (var "y") (var "x"))
    let missing := op .add (var "y") (var "z")
    let dividing := binding "q" (op .div (var "y") (number (-2)))
      (op .div (op .sub (var "q") (number 1073741831)) (number 2))
    let failing := op .div (number 1) (op .sub (var "y") (var "y"))
    (.div ∉ wrapping.operators ∧ (wrapping.evalExact table.exact).1 = .ok (-6442516480) ∧
        (wrapping.eval table).1 = .ok 2147418112 ∧
        ∃ word, (wrapping.eval table).1 = .ok word ∧ word.toInt ≡ -6442516480 [ZMOD 2 ^ 32] ∧
          ∀ other : Int32, other.toInt ≡ -6442516480 [ZMOD 2 ^ 32] → other = word) ∧
      (.div ∉ missing.operators ∧ (missing.eval table).1 = .error (.unbound "z") ∧
        ∃ name, EvalError.unbound "z" = .unbound name ∧
          (missing.evalExact table.exact).1 = .error (.unbound name)) ∧
      ((∀ n ∈ dividing.exactResults table.exact, n ∈ Set.Icc (-2 ^ 31) (2 ^ 31 - 1)) ∧
        (dividing.eval table).1 = .ok (-3) ∧
        (dividing.eval table).1.map Int32.toInt = (dividing.evalExact table.exact).1) ∧
      (∀ n ∈ failing.exactResults table.exact, n ∈ Set.Icc (-2 ^ 31) (2 ^ 31 - 1)) ∧
        (failing.eval table).1 = .error .divisionByZero := by
  intro table wrapping missing dividing failing
  have hWrapping : .div ∉ wrapping.operators := by decide
  have hMissing : .div ∉ missing.operators := by decide
  have hExact : (wrapping.evalExact table.exact).1 = .ok (-6442516480) := by decide
  have hUnbound : (missing.eval table).1 = .error (.unbound "z") := by decide
  have hDividing : ∀ n ∈ dividing.exactResults table.exact, n ∈ Set.Icc (-2 ^ 31) (2 ^ 31 - 1) := by
    decide
  have hFailing : ∀ n ∈ failing.exactResults table.exact, n ∈ Set.Icc (-2 ^ 31) (2 ^ 31 - 1) := by
    decide
  obtain ⟨-, hCongruent, -⟩ := (eval_exact wrapping table).1 hWrapping
  obtain ⟨-, -, hSameName⟩ := (eval_exact missing table).1 hMissing
  obtain ⟨hEqual, -⟩ := (eval_exact dividing table).2 hDividing
  obtain ⟨-, hDivision⟩ := (eval_exact failing table).2 hFailing
  exact ⟨⟨hWrapping, hExact, by decide, hCongruent _ hExact⟩,
    ⟨hMissing, hUnbound, hSameName _ hUnbound⟩, ⟨hDividing, by decide, hEqual⟩, hFailing,
    hDivision.2 (by decide)⟩

end Expr
end PrefixCalc
