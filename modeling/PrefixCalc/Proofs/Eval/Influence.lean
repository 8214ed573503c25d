import PrefixCalc.Proofs.Eval.Events
import PrefixCalc.Proofs.Eval.Scope

/-!
# What an evaluation depends on

A table may hold bindings that earlier evaluations have left behind.  They cannot influence an
evaluation, unless it reads one of them before it has written that name itself: from two tables
with the same values for the exposed names an evaluation has the same outcome and does the same
writes, if it succeeds and if it fails.  What the tables hold under names that are neither exposed
nor written is not touched.

At each step of the induction fewer names matter.  The names that are exposed in the part that is
worked out second are exposed in the whole or have been written by the first part, with the same
values in both runs (`SameInput.of_op_right`, `SameInput.of_binding_body`).
-/

namespace PrefixCalc
namespace Expr

/-- The tables have the same values for the exposed names of the expression. -/
def SameInput (e : Expr) (first second : Bindings) : Prop :=
  ∀ name, e.Exposed name → first.get? name = second.get? name

theorem SameInput.symm {e : Expr} {first second : Bindings} (h : e.SameInput first second) :
    e.SameInput second first :=
  fun name hExposed => (h name hExposed).symm

/-- What an operator writes, with the table that the left operand leaves for the right one. -/
theorem writes_op (operator : Operator) (left right : Expr) (table : Bindings) :
    (op operator left right).writes table = left.writes table ++
      match (left.eval table).1 with
      | .error _ => []
      | .ok _ => right.writes (left.eval table).2 := by
  rw [writes]
  rcases left.eval table with ⟨error | l, afterLeft⟩ <;> rfl

/-- What a binding writes, with the table that its value leaves for the body. -/
theorem writes_binding (name : String) (value body : Expr) (table : Bindings) :
    (binding name value body).writes table = value.writes table ++
      match (value.eval table).1 with
      | .error _ => []
      | .ok v => (name, v) :: body.writes ((value.eval table).2.bind name v) := by
  rw [writes]
  rcases value.eval table with ⟨error | v, afterValue⟩ <;> rfl

/-- After a success that has done the same writes to both, two tables agree on the names of the
bindings and on those that they have agreed on before. -/
theorem get?_eval_congr {e : Expr} {first second : Bindings} {value : Int32} {name : String}
    (hOutcome : (e.eval first).1 = .ok value) (hWrites : e.writes first = e.writes second)
    (hName : name ∉ e.boundNames → first.get? name = second.get? name) :
    (e.eval first).2.get? name = (e.eval second).2.get? name := by
  rw [eval_snd, eval_snd, ← hWrites]
  apply Bindings.get?_writeAll_congr
  rw [(e.names_writes first).2 value hOutcome]
  exact or_iff_not_imp_left.2 hName

section
variable {operator : Operator} {name : String} {left right value body : Expr}
variable {first second : Bindings}

theorem SameInput.of_op_left (h : (op operator left right).SameInput first second) :
    left.SameInput first second :=
  fun name hExposed => h name ((exposed_op_iff operator left right name).2 (.inl hExposed))

theorem SameInput.of_op_right (h : (op operator left right).SameInput first second) {l : Int32}
    (hOutcome : (left.eval first).1 = .ok l) (hWrites : left.writes first = left.writes second) :
    right.SameInput (left.eval first).2 (left.eval second).2 := by
  intro name hExposed
  refine get?_eval_congr hOutcome hWrites fun hBound => h name ?_
  exact (exposed_op_iff operator left right name).2 (.inr ⟨hBound, hExposed⟩)

theorem SameInput.of_binding_value (h : (binding name value body).SameInput first second) :
    value.SameInput first second :=
  fun other hExposed => h other ((exposed_binding_iff name value body other).2 (.inl hExposed))

theorem SameInput.of_binding_body (h : (binding name value body).SameInput first second) {v : Int32}
    (hOutcome : (value.eval first).1 = .ok v) (hWrites : value.writes first = value.writes second) :
    body.SameInput ((value.eval first).2.bind name v) ((value.eval second).2.bind name v) := by
  intro other hExposed
  by_cases hName : other = name
  · rw [hName, Bindings.get?_bind_self, Bindings.get?_bind_self]
  · rw [Bindings.get?_bind_of_ne _ _ hName, Bindings.get?_bind_of_ne _ _ hName]
    refine get?_eval_congr hOutcome hWrites fun hBound => h other ?_
    exact (exposed_binding_iff name value body other).2 (.inr ⟨hBound, hName, hExposed⟩)

end

/-- The same input gives the same outcome and the same writes. -/
theorem SameInput.eval_eq_and_writes_eq {e : Expr} {first second : Bindings}
    (h : e.SameInput first second) :
    (e.eval first).1 = (e.eval second).1 ∧ e.writes first = e.writes second := by
  induction e generalizing first second with
  | number value => exact ⟨rfl, rfl⟩
  | var name =>
    have hGet := h name ((exposed_var_iff name name).2 rfl)
    refine ⟨?_, rfl⟩
    rw [eval, eval, hGet]
    cases second.get? name <;> rfl
  | op operator left right ihLeft ihRight =>
    obtain ⟨hLeft, hWrites⟩ := ihLeft h.of_op_left
    rw [eval_op_fst, eval_op_fst, writes_op, writes_op, ← hLeft, ← hWrites]
    cases hOutcome : (left.eval first).1 with
    | error error => exact ⟨rfl, rfl⟩
    | ok l =>
      obtain ⟨hRight, hWritesRight⟩ := ihRight (h.of_op_right hOutcome hWrites)
      simp only [hRight, hWritesRight, and_self]
  | binding name value body ihValue ihBody =>
    obtain ⟨hValue, hWrites⟩ := ihValue h.of_binding_value
    rw [eval_binding_fst, eval_binding_fst, writes_binding, writes_binding, ← hValue, ← hWrites]
    cases hOutcome : (value.eval first).1 with
    | error error => exact ⟨rfl, rfl⟩
    | ok v =>
      obtain ⟨hBody, hWritesBody⟩ := ihBody (h.of_binding_body hOutcome hWrites)
      simp only [hBody, hWritesBody, and_self]

/-- On a table with the same input the evaluation goes the same way. -/
theorem SameInput.eval_eq {e : Expr} {first second after : Bindings}
    {outcome : Except EvalError Int32} (h : e.SameInput first second)
    (hEval : e.eval first = (outcome, after)) :
    e.eval second = (outcome, second.writeAll (e.writes first)) := by
  obtain ⟨hOutcome, hWrites⟩ := h.eval_eq_and_writes_eq
  have hSecond : (e.eval second).1 = outcome := by rw [← hOutcome, hEval]
  rw [hWrites, ← eval_snd, ← hSecond]

/-- From two tables with the same values for the exposed names an evaluation has the same outcome
and does the same writes, whether it succeeds or fails.  So afterwards the tables agree on the
exposed names and on the names that were written, and each holds under all other names what it held
before. -/
theorem eval_of_same_exposed (e : Expr) {first second : Bindings}
    (h : ∀ name, e.Exposed name → first.get? name = second.get? name) :
    (e.eval first).1 = (e.eval second).1 ∧
      e.writes first = e.writes second ∧
      (e.eval first).2 = first.writeAll (e.writes first) ∧
      (e.eval second).2 = second.writeAll (e.writes first) ∧
      (∀ name, e.Exposed name ∨ name ∈ (e.writes first).map Prod.fst →
        (e.eval first).2.get? name = (e.eval second).2.get? name) ∧
      ∀ name, name ∉ (e.writes first).map Prod.fst →
        (e.eval first).2.get? name = first.get? name ∧
          (e.eval second).2.get? name = second.get? name := by
  have hSame : e.SameInput first second := h
  obtain ⟨hOutcome, hWrites⟩ := hSame.eval_eq_and_writes_eq
  have hFirst : (e.eval first).2 = first.writeAll (e.writes first) := e.eval_snd first
  have hSecond : (e.eval second).2 = second.writeAll (e.writes first) := by
    rw [hWrites]
    exact e.eval_snd second
  refine ⟨hOutcome, hWrites, hFirst, hSecond, ?agree, ?kept⟩
  case agree =>
    intro name hName
    rw [hFirst, hSecond]
    exact Bindings.get?_writeAll_congr (hName.symm.imp_right (h name))
  case kept =>
    intro name hName
    rw [hFirst, hSecond]
    exact ⟨Bindings.get?_writeAll_of_not_mem first hName,
      Bindings.get?_writeAll_of_not_mem second hName⟩

/-- The evaluation fails between two bindings.  The tables differ in `x`, which is written before it
is read, and in `v`, which the failed evaluation does not come to. -/
theorem eval_of_leftover_bindings :
    let e := op .add (binding "x" (var "y") (op .div (var "x") (var "z")))
      (binding "v" (number 1) (var "x"))
    let first := ((Bindings.empty.bind "y" 4).bind "z" 0).bind "x" 1
    let second := (((Bindings.empty.bind "z" 0).bind "y" 4).bind "x" 2).bind "v" 3
    (∀ name, e.Exposed name → first.get? name = second.get? name) ∧
      ((e.eval first).1 = .error .divisionByZero ∧ (e.eval first).1 = (e.eval second).1) ∧
      (e.writes first = [("x", 4)] ∧ e.writes first = e.writes second) ∧
      (e.eval first).2.get? "x" = (e.eval second).2.get? "x" ∧
      ((e.eval first).2.get? "v" = first.get? "v" ∧ first.get? "v" = none) ∧
      (e.eval second).2.get? "v" = second.get? "v" ∧ second.get? "v" = some 3 := by
  intro e first second
  have hExposed : ∀ name, e.Exposed name → first.get? name = second.get? name := by decide
  have hWritten : e.writes first = [("x", 4)] := by decide
  obtain ⟨hOutcome, hWrites, -, -, hAgree, hKept⟩ := eval_of_same_exposed e hExposed
  obtain ⟨hFirst, hSecond⟩ := hKept "v" (by rw [hWritten]; decide)
  exact ⟨hExposed, ⟨by decide, hOutcome⟩, ⟨hWritten, hWrites⟩,
    hAgree "x" (.inr (by rw [hWritten]; decide)), ⟨hFirst, by decide⟩, hSecond, by decide⟩

end Expr
end PrefixCalc
