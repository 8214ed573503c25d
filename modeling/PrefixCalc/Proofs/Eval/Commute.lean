import PrefixCalc.Proofs.Eval.Influence

/-!
# Operands in either order

The left operand of a sum is worked out before the right one, and what it binds is seen by the right
one.  The order can be told from the outside only through names that one operand binds and the other
one mentions.  Where there is none, neither operand influences the other, and the two logs write
different names, so that their order makes no difference to the table either.
-/

namespace PrefixCalc
namespace Bindings

/-- Two logs that share no name can be written in either order. -/
theorem writeAll_comm (table : Bindings) {first second : List (String × Int32)}
    (h : ∀ name ∈ first.map Prod.fst, name ∉ second.map Prod.fst) :
    (table.writeAll first).writeAll second = (table.writeAll second).writeAll first := by
  ext name : 2
  by_cases hFirst : name ∈ first.map Prod.fst
  · rw [get?_writeAll_of_not_mem _ (h name hFirst)]
    exact get?_writeAll_congr (.inl hFirst)
  · rw [get?_writeAll_of_not_mem _ hFirst]
    exact get?_writeAll_congr (.inr (get?_writeAll_of_not_mem table hFirst))

end Bindings

namespace Expr

theorem mem_names_of_mem_boundNames {e : Expr} {name : String} (h : name ∈ e.boundNames) :
    name ∈ e.names := by
  induction e with
  | number value => exact h
  | var other => exact absurd h List.not_mem_nil
  | op operator left right ihLeft ihRight =>
    rw [names, List.mem_append]
    exact (List.mem_append.1 h).imp ihLeft ihRight
  | binding other value body ihValue ihBody =>
    rw [boundNames, List.mem_append, List.mem_cons] at h
    rw [names, List.mem_cons, List.mem_append]
    rcases h with hValue | hName | hBody
    · exact .inr (.inl (ihValue hValue))
    · exact .inl hName
    · exact .inr (.inr (ihBody hBody))

theorem Exposed.mem_names {e : Expr} {name : String} (h : e.Exposed name) : name ∈ e.names := by
  induction e with
  | number value => exact absurd h (not_exposed_number value name)
  | var other => exact List.mem_singleton.2 ((exposed_var_iff other name).1 h)
  | op operator left right ihLeft ihRight =>
    rw [names, List.mem_append]
    exact ((exposed_op_iff operator left right name).1 h).imp ihLeft fun hRight => ihRight hRight.2
  | binding other value body ihValue ihBody =>
    rw [names, List.mem_cons, List.mem_append]
    exact .inr (((exposed_binding_iff other value body name).1 h).imp ihValue
      fun hBody => ihBody hBody.2.2)

/-- An expression has the same input before and after the evaluation of another one that binds none
of its names. -/
theorem sameInput_eval {e other : Expr} (h : ∀ name ∈ other.boundNames, name ∉ e.names)
    (table : Bindings) : e.SameInput (other.eval table).2 table := by
  intro name hExposed
  exact get?_eval_of_not_mem table fun hBound => h name hBound hExposed.mem_names

/-- If the operands of an operator whose operands may change places bind none of each other's names,
they may change places in the expression. -/
theorem eval_op_swap {operator : Operator} {left right : Expr} {table after : Bindings}
    {result : Int32} (hOperator : ∀ l r, operator.apply l r = operator.apply r l)
    (hLeft : ∀ name ∈ left.boundNames, name ∉ right.names)
    (hRight : ∀ name ∈ right.boundNames, name ∉ left.names)
    (h : (op operator left right).eval table = (.ok result, after)) :
    (op operator right left).eval table = (.ok result, after) := by
  obtain ⟨l, r, afterLeft, hEvalLeft, hEvalRight, hApply⟩ := eval_op_eq_ok_iff.1 h
  -- The right operand goes the same way without the left one in front of it, and the left operand
  -- with the right one in front of it.
  have hRightFirst : right.eval table = (.ok r, table.writeAll (right.writes afterLeft)) := by
    have hSame := sameInput_eval hLeft table
    rw [hEvalLeft] at hSame
    exact hSame.eval_eq hEvalRight
  have hLeftSecond : left.eval (table.writeAll (right.writes afterLeft)) =
      (.ok l, (table.writeAll (right.writes afterLeft)).writeAll (left.writes table)) := by
    have hSame := (sameInput_eval hRight table).symm
    rw [hRightFirst] at hSame
    exact hSame.eval_eq hEvalLeft
  have hApart : ∀ name ∈ (left.writes table).map Prod.fst,
      name ∉ (right.writes afterLeft).map Prod.fst := by
    intro name hFirst hSecond
    refine hLeft name ((left.names_writes_prefix table).subset hFirst) ?_
    exact mem_names_of_mem_boundNames ((right.names_writes_prefix afterLeft).subset hSecond)
  have hAfter : after = (table.writeAll (right.writes afterLeft)).writeAll (left.writes table) := by
    calc after = afterLeft.writeAll (right.writes afterLeft) := eq_writeAll_of_eval hEvalRight
      _ = (table.writeAll (left.writes table)).writeAll (right.writes afterLeft) := by
        rw [← eq_writeAll_of_eval hEvalLeft]
      _ = _ := Bindings.writeAll_comm table hApart
  rw [hAfter]
  exact eval_op_eq_ok_iff.2 ⟨r, l, _, hRightFirst, hLeftSecond, (hOperator r l).trans hApply⟩

/-- Operands of a sum or a product that bind none of each other's names may change places: with one
order there is a value exactly if there is one with the other, and it is the same value and leaves
the same table. -/
theorem eval_op_comm {operator : Operator} {left right : Expr}
    (hOperator : operator = .add ∨ operator = .mul)
    (hLeft : ∀ name ∈ left.boundNames, name ∉ right.names)
    (hRight : ∀ name ∈ right.boundNames, name ∉ left.names)
    (table after : Bindings) (result : Int32) :
    (op operator left right).eval table = (.ok result, after) ↔
      (op operator right left).eval table = (.ok result, after) := by
  have hApply : ∀ l r, operator.apply l r = operator.apply r l := by
    intro l r
    rcases hOperator with rfl | rfl
    · exact congrArg Except.ok (Int32.add_comm l r)
    · exact congrArg Except.ok (Int32.mul_comm l r)
  exact ⟨eval_op_swap hApply hLeft hRight, eval_op_swap hApply hRight hLeft⟩

/-- Both operands bind names and read one that neither binds. -/
theorem eval_op_comm_of_two_bindings :
    let left := binding "x" (var "z") (op .add (var "x") (number 1))
    let right := binding "y" (number 5) (op .sub (var "z") (var "y"))
    let table := Bindings.empty.bind "z" 3
    let after := (table.bind "y" 5).bind "x" 3
    ((∀ name ∈ left.boundNames, name ∉ right.names) ∧
        ∀ name ∈ right.boundNames, name ∉ left.names) ∧
      (op .mul right left).eval table = (.ok (-8), after) ∧
      (op .mul left right).eval table = (.ok (-8), after) := by
  intro left right table after
  have hLeft : ∀ name ∈ left.boundNames, name ∉ right.names := by decide
  have hRight : ∀ name ∈ right.boundNames, name ∉ left.names := by decide
  have hSwapped : (op .mul right left).eval table = (.ok (-8), after) := rfl
  exact ⟨⟨hLeft, hRight⟩, hSwapped,
    (eval_op_comm (.inr rfl) hLeft hRight table after (-8)).2 hSwapped⟩

end Expr
end PrefixCalc
