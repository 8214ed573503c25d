import PrefixCalc.Proofs.Eval.Writes

/-!
# Lexical scope

The evaluator keeps one table and never takes a binding back, which is not lexical scope: in
`add(let(x, 1, add(x, 0)), x)` the last `x` has a value.  Here the evaluator is compared with one
that does have lexical scope, `evalScoped`, which hands an environment down the tree and extends it
for the body of a binding alone.  The two differ only where a binding leaks, that is, where a name
bound in the part that is worked out first is free in the part that is worked out after it.  An
expression is `Contained` when this happens nowhere in it.

The induction needs less than equal tables.  What the evaluation carries on from one operand to the
next is that the table and the environment agree on the names that are still free in what is to
come (`eval_fst_of_agreeOn`).
-/

namespace PrefixCalc
namespace Bindings

/-- Two tables answer alike for the given names. -/
def AgreeOn (names : List String) (first second : Bindings) : Prop :=
  ∀ name ∈ names, first.get? name = second.get? name

theorem AgreeOn.mono {names fewer : List String} {first second : Bindings}
    (h : AgreeOn names first second) (hSubset : fewer ⊆ names) : AgreeOn fewer first second :=
  fun name hMem => h name (hSubset hMem)

/-- The same write to both tables makes them agree on one name more. -/
theorem AgreeOn.bind {names : List String} {first second : Bindings} {name : String}
    (value : Int32) (h : AgreeOn (names.filter (· ≠ name)) first second) :
    AgreeOn names (first.bind name value) (second.bind name value) := by
  intro other hMem
  by_cases hEq : other = name
  · rw [hEq, get?_bind_self, get?_bind_self]
  · rw [get?_bind_of_ne _ _ hEq, get?_bind_of_ne _ _ hEq]
    exact h other (List.mem_filter.2 ⟨hMem, by simpa using hEq⟩)

end Bindings

namespace Expr

/-- The names that are read outside the bodies of their bindings. -/
def freeNames : Expr → List String
  | number _ => []
  | var name => [name]
  | op _ left right => left.freeNames ++ right.freeNames
  | binding name value body => value.freeNames ++ body.freeNames.filter (· ≠ name)

/-- The value of the expression under lexical scope: an operand sees the environment that the
operator sees, and a body sees the binding besides. -/
def evalScoped (e : Expr) (env : Bindings) : Except EvalError Int32 :=
  match e with
  | number value => .ok value
  | var name =>
    match env.get? name with
    | some value => .ok value
    | none => .error (.unbound name)
  | op operator left right =>
    match left.evalScoped env with
    | .error error => .error error
    | .ok l =>
      match right.evalScoped env with
      | .error error => .error error
      | .ok r => operator.apply l r
  | binding name value body =>
    match value.evalScoped env with
    | .error error => .error error
    | .ok v => body.evalScoped (env.bind name v)

/-- No binding leaks: at every operator the names bound on the left are not free on the right, and
at every binding the names bound in the value, its own name apart, are not free in the body. -/
def Contained : Expr → Prop
  | number _ => True
  | var _ => True
  | op _ left right =>
    (∀ name ∈ left.boundNames, name ∉ right.freeNames) ∧ left.Contained ∧ right.Contained
  | binding name value body =>
    (∀ other ∈ value.boundNames, other ≠ name → other ∉ body.freeNames) ∧
      value.Contained ∧ body.Contained

instance decidableContained : (e : Expr) → Decidable e.Contained
  | number _ => .isTrue trivial
  | var _ => .isTrue trivial
  | op _ left right =>
    have := decidableContained left
    have := decidableContained right
    inferInstanceAs (Decidable (_ ∧ _ ∧ _))
  | binding _ value body =>
    have := decidableContained value
    have := decidableContained body
    inferInstanceAs (Decidable (_ ∧ _ ∧ _))

/-! ## One node at a time -/

/-- The value at an operator, with the table that the left operand leaves for the right one. -/
theorem eval_op_fst (operator : Operator) (left right : Expr) (table : Bindings) :
    ((op operator left right).eval table).1 =
      match (left.eval table).1 with
      | .error error => .error error
      | .ok l =>
        match (right.eval (left.eval table).2).1 with
        | .error error => .error error
        | .ok r => operator.apply l r := by
  rw [eval]
  rcases left.eval table with ⟨error | l, afterLeft⟩
  · rfl
  · simp only
    rcases right.eval afterLeft with ⟨error | r, afterRight⟩ <;> rfl

/-- The value at a binding, with the table that its value leaves for the body. -/
theorem eval_binding_fst (name : String) (value body : Expr) (table : Bindings) :
    ((binding name value body).eval table).1 =
      match (value.eval table).1 with
      | .error error => .error error
      | .ok v => (body.eval ((value.eval table).2.bind name v)).1 := by
  rw [eval]
  rcases value.eval table with ⟨error | v, afterValue⟩ <;> rfl

/-- An evaluation keeps two tables in agreement on names that it does not bind. -/
theorem agreeOn_eval {e : Expr} {names : List String} {table env : Bindings}
    (hNames : ∀ name ∈ e.boundNames, name ∉ names) (h : Bindings.AgreeOn names table env) :
    Bindings.AgreeOn names (e.eval table).2 env := by
  intro name hMem
  rw [get?_eval_of_not_mem table fun hBound => hNames name hBound hMem]
  exact h name hMem

/-! ## Whole expressions -/

/-- A contained expression has its value under lexical scope already when the table agrees with the
environment on its free names. -/
theorem eval_fst_of_agreeOn {e : Expr} {table env : Bindings} (hContained : e.Contained)
    (hAgree : Bindings.AgreeOn e.freeNames table env) : (e.eval table).1 = e.evalScoped env := by
  induction e generalizing table env with
  | number value => rfl
  | var name =>
    rw [eval, evalScoped, hAgree name List.mem_cons_self]
    cases env.get? name <;> rfl
  | op operator left right ihLeft ihRight =>
    obtain ⟨hApart, hLeft, hRight⟩ := hContained
    have hAgreeLeft : Bindings.AgreeOn left.freeNames table env :=
      hAgree.mono (List.subset_append_left _ _)
    -- What the left operand writes is not free in the right one.
    have hAgreeRight : Bindings.AgreeOn right.freeNames (left.eval table).2 env :=
      agreeOn_eval hApart (hAgree.mono (List.subset_append_right _ _))
    rw [eval_op_fst, evalScoped, ihLeft hLeft hAgreeLeft, ihRight hRight hAgreeRight]
  | binding name value body ihValue ihBody =>
    obtain ⟨hApart, hValue, hBody⟩ := hContained
    have hAgreeValue : Bindings.AgreeOn value.freeNames table env :=
      hAgree.mono (List.subset_append_left _ _)
    have hAgreeBody :
        Bindings.AgreeOn (body.freeNames.filter (· ≠ name)) (value.eval table).2 env := by
      refine agreeOn_eval ?_ (hAgree.mono (List.subset_append_right _ _))
      intro other hBound hMem
      obtain ⟨hFree, hNe⟩ := List.mem_filter.1 hMem
      exact hApart other hBound (by simpa using hNe) hFree
    rw [eval_binding_fst, evalScoped, ihValue hValue hAgreeValue]
    -- Even if the value has left its own `name` behind, the binding overwrites it.
    cases value.evalScoped env with
    | error error => rfl
    | ok v => exact ihBody hBody (hAgreeBody.bind v)

/-- Without a leaking binding the flat table gives lexical scope: from any table, the value or the
error of an expression is the one it has under lexical scope when the environment starts as this
table. -/
theorem eval_eq_evalScoped (e : Expr) (hContained : e.Contained) (table : Bindings) :
    (e.eval table).1 = e.evalScoped table :=
  eval_fst_of_agreeOn hContained fun _ _ => rfl

/-- A value with a binding of its own, a name that is bound again in the body of its binding, a
name from the table, and at the end a name that nothing binds. -/
theorem eval_rebinding :
    let e := Expr.binding "x" (.binding "x" (.number 2) (.op .add (.var "x") (.var "x")))
      (.op .add (.var "x") (.binding "x" (.number 5) (.op .mul (.var "x") (.var "z"))))
    let table := Bindings.empty.bind "z" 7
    e.Contained ∧ (e.eval table).1 = e.evalScoped table ∧ e.evalScoped table = .ok 39 ∧
      (Expr.op .sub e (.var "w")).Contained ∧
      ((Expr.op .sub e (.var "w")).eval table).1 = (Expr.op .sub e (.var "w")).evalScoped table ∧
      (Expr.op .sub e (.var "w")).evalScoped table = .error (.unbound "w") := by
  intro e table
  have hContained : e.Contained := by decide
  have hFailing : (Expr.op .sub e (.var "w")).Contained := by decide
  exact ⟨hContained, eval_eq_evalScoped e hContained table, by decide, hFailing,
    eval_eq_evalScoped _ hFailing table, by decide⟩

/-- A binding on the left that is free on the right leaks, and then the two evaluators differ. -/
example :
    let e := Expr.op .add (.binding "x" (.number 1) (.op .add (.var "x") (.number 0))) (.var "x")
    ¬ e.Contained ∧ (e.eval .empty).1 = .ok 2 ∧ e.evalScoped .empty = .error (.unbound "x") := by
  decide

end Expr
end PrefixCalc
