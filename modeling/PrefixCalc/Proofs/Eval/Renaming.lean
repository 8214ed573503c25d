import PrefixCalc.Proofs.Eval.Influence

/-!
# Other names

What the names are does not matter to an evaluation, only which of them are the same.  Rename all
variables and bindings of an expression alike and take a table that has under each new name what the
old table has under the old one (`Renames`): the value stays the same, an error tells the new name,
and the writes are the old ones under new names, so that the tables are related in the same way when
the evaluation is over.

No two names may become one.  As there is a single table and nothing is taken out of it, bindings in
parts of an expression that have nothing to do with each other meet there, and a function that makes
two names one changes the value of some expression (`injective_of_eval_rename`).
-/

namespace PrefixCalc

/-- The error with its name replaced, if it has one. -/
def EvalError.rename (f : String → String) : EvalError → EvalError
  | unbound name => .unbound (f name)
  | divisionByZero => .divisionByZero

/-- An operator fails without a name. -/
theorem Operator.mapError_apply (f : String → String) (operator : Operator) (left right : Int32) :
    (operator.apply left right).mapError (EvalError.rename f) = operator.apply left right := by
  cases hApply : operator.apply left right with
  | ok result => rfl
  | error error =>
    obtain ⟨-, -, rfl⟩ := Operator.apply_eq_error_iff.1 hApply
    rfl

/-- The expression with the names of all variables and bindings replaced. -/
def Expr.rename (f : String → String) : Expr → Expr
  | number value => .number value
  | var name => .var (f name)
  | op operator left right => .op operator (left.rename f) (right.rename f)
  | binding name value body => .binding (f name) (value.rename f) (body.rename f)

namespace Bindings

variable {f : String → String} {table renamed : Bindings}

/-- The second table has under each new name what the first one has under the old name. -/
def Renames (f : String → String) (table renamed : Bindings) : Prop :=
  ∀ name, renamed.get? (f name) = table.get? name

theorem renames_empty (f : String → String) : Renames f empty empty :=
  fun _ => rfl

/-- The write of a name does not touch the new name of another one. -/
theorem Renames.bind (hInjective : Function.Injective f) (h : Renames f table renamed)
    (name : String) (value : Int32) :
    Renames f (table.bind name value) (renamed.bind (f name) value) := by
  intro other
  by_cases hName : other = name
  · rw [hName, get?_bind_self, get?_bind_self]
  · have hNew : f other ≠ f name := hInjective.ne hName
    rw [get?_bind_of_ne _ _ hName, get?_bind_of_ne _ _ hNew]
    exact h other

theorem Renames.writeAll (hInjective : Function.Injective f) (h : Renames f table renamed)
    (log : List (String × Int32)) :
    Renames f (table.writeAll log) (renamed.writeAll (log.map (Prod.map f id))) := by
  induction log generalizing table renamed with
  | nil => exact h
  | cons write log ih =>
    rw [List.map_cons, writeAll_cons, writeAll_cons]
    exact ih (h.bind hInjective write.1 write.2)

end Bindings

namespace Expr

variable {f : String → String} {table renamed : Bindings}

/-- Renamed writes leave tables in the relation in which they have found them. -/
theorem renames_eval (hInjective : Function.Injective f) {e : Expr}
    (h : Bindings.Renames f table renamed)
    (hWrites : (e.rename f).writes renamed = (e.writes table).map (Prod.map f id)) :
    Bindings.Renames f (e.eval table).2 ((e.rename f).eval renamed).2 := by
  rw [eval_snd, eval_snd, hWrites]
  exact h.writeAll hInjective (e.writes table)

/-- The evaluation of the renamed expression has the renamed outcome and does the renamed writes. -/
theorem eval_and_writes_rename (hInjective : Function.Injective f) {e : Expr}
    (h : Bindings.Renames f table renamed) :
    ((e.rename f).eval renamed).1 = (e.eval table).1.mapError (EvalError.rename f) ∧
      (e.rename f).writes renamed = (e.writes table).map (Prod.map f id) := by
  induction e generalizing table renamed with
  | number value => exact ⟨rfl, rfl⟩
  | var name =>
    have hGet : renamed.get? (f name) = table.get? name := h name
    refine ⟨?_, rfl⟩
    rw [rename, eval, eval, hGet]
    cases table.get? name <;> rfl
  | op operator left right ihLeft ihRight =>
    obtain ⟨hLeft, hWritesLeft⟩ := ihLeft h
    rw [rename, eval_op_fst, eval_op_fst, writes_op, writes_op, hLeft, hWritesLeft]
    cases (left.eval table).1 with
    | error error => exact ⟨rfl, by simp [Except.mapError]⟩
    | ok l =>
      -- Both right operands are worked out, on the tables that the left ones leave.
      obtain ⟨hRight, hWritesRight⟩ := ihRight (renames_eval hInjective h hWritesLeft)
      simp only [Except.mapError, hRight, hWritesRight, List.map_append, and_true]
      cases (right.eval (left.eval table).2).1 with
      | error error => rfl
      | ok r => exact (operator.mapError_apply f l r).symm
  | binding name value body ihValue ihBody =>
    obtain ⟨hValue, hWritesValue⟩ := ihValue h
    rw [rename, eval_binding_fst, eval_binding_fst, writes_binding, writes_binding, hValue,
      hWritesValue]
    cases (value.eval table).1 with
    | error error => exact ⟨rfl, by simp [Except.mapError]⟩
    | ok v =>
      have hBound := (renames_eval hInjective h hWritesValue).bind hInjective name v
      obtain ⟨hBody, hWritesBody⟩ := ihBody hBound
      simp only [Except.mapError, hBody, hWritesBody, List.map_append, List.map_cons,
        Prod.map_apply, id_eq, and_self]

/-- Consistent renaming: when no two names become one, the renamed expression has, from a table with
the same values under the new names, the same value, the same error with its name replaced, and
leaves a table that again has the same values under the new names, whether it has a value or not. -/
theorem eval_rename (hInjective : Function.Injective f) (e : Expr)
    (h : ∀ name, renamed.get? (f name) = table.get? name) :
    ((e.rename f).eval renamed).1 = (e.eval table).1.mapError (EvalError.rename f) ∧
      ∀ name, ((e.rename f).eval renamed).2.get? (f name) = (e.eval table).2.get? name := by
  obtain ⟨hOutcome, hWrites⟩ := eval_and_writes_rename hInjective (e := e) h
  exact ⟨hOutcome, renames_eval hInjective h hWrites⟩

/-- Two names change places, and one of them is bound, the other one not. -/
theorem eval_rename_swap :
    let f : String → String := Equiv.swap "x" "w"
    let e := op .add (binding "x" (var "z") (op .div (var "x") (var "y"))) (var "w")
    let table := (Bindings.empty.bind "z" 6).bind "y" 2
    let renamed := (Bindings.empty.bind "z" 6).bind "y" 2
    Function.Injective f ∧ (∀ name, renamed.get? (f name) = table.get? name) ∧
      (e.eval table).1 = .error (.unbound "w") ∧
      ((e.rename f).eval renamed).1 = .error (.unbound "x") ∧
      (e.eval table).2.get? "x" = some 6 ∧ ((e.rename f).eval renamed).2.get? "w" = some 6 := by
  intro f e table renamed
  have hInjective : Function.Injective f := (Equiv.swap "x" "w").injective
  have hTable : ∀ name, renamed.get? (f name) = table.get? name :=
    ((Bindings.renames_empty f).bind hInjective "z" 6).bind hInjective "y" 2
  have hError : (e.eval table).1 = .error (.unbound "w") := by decide
  have hFound : (e.eval table).2.get? "x" = some 6 := by decide
  obtain ⟨hOutcome, hAfter⟩ := eval_rename hInjective e hTable
  rw [hError] at hOutcome
  exact ⟨hInjective, hTable, hError, hOutcome, hFound, (hAfter "x").trans hFound⟩

/-- If renaming by a function never changes an outcome, but for the name that an error tells, the
function keeps different names different. -/
theorem injective_of_eval_rename
    (h : ∀ (e : Expr) (table renamed : Bindings),
      (∀ name, renamed.get? (f name) = table.get? name) →
        ((e.rename f).eval renamed).1 = (e.eval table).1.mapError (EvalError.rename f)) :
    Function.Injective f := by
  intro first second hSame
  by_contra hNe
  -- The inner binding takes the name of the outer one over.
  let e := binding first (number 1) (binding second (number 2) (var first))
  have hOutcome := h e .empty .empty fun _ => rfl
  have hBefore : (e.eval .empty).1 = .ok 1 := by
    simp [e, eval, Bindings.get?_bind_of_ne _ _ hNe]
  have hAfter : ((e.rename f).eval .empty).1 = .ok 2 := by
    simp [e, rename, eval, hSame]
  rw [hBefore, hAfter] at hOutcome
  exact absurd (Except.ok.inj hOutcome) (by decide)

end Expr
end PrefixCalc
