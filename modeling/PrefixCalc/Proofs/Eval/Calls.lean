import PrefixCalc.Proofs.Eval.Writes

/-!
# Calls on one table

A table may be used for more than one evaluation, and names may be bound on it from outside between
them.  Whatever the calls and in which order, all that becomes of the table is a log of writes, one
piece for each call: a failed evaluation leaves the first of its writes behind and undoes none of
them.  The later of two writes to a name counts (`get?_writeAll`), so a name has the value that was
last written for it, by whichever call, or the one it had at the start.
-/

namespace PrefixCalc

/-- Something that is done with a table. -/
inductive Call where
  | bind (name : String) (value : Int32)
  | eval (e : Expr)
  deriving DecidableEq, Repr

namespace Bindings

/-- A name has the value that was last written for it, or the one that it had. -/
theorem get?_writeAll (table : Bindings) (log : List (String × Int32)) (name : String) :
    (table.writeAll log).get? name = (log.reverse.lookup name).or (table.get? name) := by
  induction log using List.reverseRecOn with
  | nil => rfl
  | append_singleton log write ih =>
    obtain ⟨other, value⟩ := write
    rw [writeAll_append, List.reverse_append]
    show ((table.writeAll log).bind other value).get? name =
      (List.lookup name ((other, value) :: log.reverse)).or (table.get? name)
    by_cases hName : name = other
    · subst hName
      rw [get?_bind_self, List.lookup_cons_self]
      rfl
    · rw [get?_bind_of_ne _ _ hName, List.lookup_cons, beq_false_of_ne hName, ih]

/-- A write takes no name out of the table. -/
theorem isSome_get?_writeAll {table : Bindings} {name : String} (log : List (String × Int32))
    (h : (table.get? name).isSome) : ((table.writeAll log).get? name).isSome :=
  (isSome_get?_writeAll_iff table log name).2 (.inr h)

end Bindings

namespace Call

/-- The table after the call, whether an evaluation has succeeded or not. -/
def after (call : Call) (table : Bindings) : Bindings :=
  match call with
  | bind name value => table.bind name value
  | eval e => (e.eval table).2

/-- The names that the call may write. -/
def names : Call → List String
  | bind name _ => [name]
  | eval e => e.boundNames

/-- What the call writes, the earliest first. -/
def log (call : Call) (table : Bindings) : List (String × Int32) :=
  match call with
  | bind name value => [(name, value)]
  | eval e => e.writes table

/-- The call has written the log: its own pair for a binding, and for an evaluation the names of the
bindings in their order, all of them if there is a value and the first of them if there is none. -/
def Writes (call : Call) (table : Bindings) (log : List (String × Int32)) : Prop :=
  match call with
  | bind name value => log = [(name, value)]
  | eval e =>
    match (e.eval table).1 with
    | .ok _ => log.map Prod.fst = e.boundNames
    | .error _ => log.map Prod.fst <+: e.boundNames

theorem after_eq (call : Call) (table : Bindings) :
    call.after table = table.writeAll (call.log table) := by
  cases call with
  | bind name value => rfl
  | eval e => exact e.eval_snd table

theorem writes_log (call : Call) (table : Bindings) : call.Writes table (call.log table) := by
  cases call with
  | bind name value => rfl
  | eval e =>
    obtain ⟨hPrefix, hAll⟩ := e.names_writes table
    rw [Writes]
    cases hOutcome : (e.eval table).1 with
    | ok value => exact hAll value hOutcome
    | error error => exact hPrefix

/-- A call writes none but its own names. -/
theorem names_log_subset (call : Call) (table : Bindings) :
    (call.log table).map Prod.fst ⊆ call.names := by
  cases call with
  | bind name value => exact List.Subset.refl _
  | eval e => exact (e.names_writes_prefix table).subset

end Call

namespace Bindings

/-- The table after the calls, one after the other. -/
def afterCalls (table : Bindings) (calls : List Call) : Bindings :=
  calls.foldl (fun before call => call.after before) table

/-- What the calls write, call by call. -/
def logs (table : Bindings) : List Call → List (List (String × Int32))
  | [] => []
  | call :: calls => call.log table :: (call.after table).logs calls

theorem length_logs (table : Bindings) (calls : List Call) :
    (table.logs calls).length = calls.length := by
  induction calls generalizing table with
  | nil => rfl
  | cons call calls ih => exact congrArg Nat.succ (ih (call.after table))

/-- Each piece of the log is written by its call, on the table that the calls before it leave. -/
theorem getElem?_logs (table : Bindings) (calls : List Call) (i : Nat) :
    (table.logs calls)[i]? =
      calls[i]?.map fun call => call.log (table.afterCalls (calls.take i)) := by
  induction calls generalizing table i with
  | nil => rfl
  | cons call calls ih =>
    cases i with
    | zero => rfl
    | succ i => exact ih (call.after table) i

/-- The table after the calls is the one before with everything written over it. -/
theorem afterCalls_eq (table : Bindings) (calls : List Call) :
    table.afterCalls calls = table.writeAll (table.logs calls).flatten := by
  induction calls generalizing table with
  | nil => rfl
  | cons call calls ih =>
    rw [logs, List.flatten_cons, writeAll_append, ← call.after_eq table]
    exact ih (call.after table)

theorem exists_call_of_mem_logs {name : String} {table : Bindings} {calls : List Call}
    (h : name ∈ (table.logs calls).flatten.map Prod.fst) : ∃ call ∈ calls, name ∈ call.names := by
  induction calls generalizing table with
  | nil => exact absurd h List.not_mem_nil
  | cons call calls ih =>
    rw [logs, List.flatten_cons, List.map_append, List.mem_append] at h
    rcases h with hFirst | hRest
    · exact ⟨call, List.mem_cons_self, call.names_log_subset table hFirst⟩
    · obtain ⟨other, hMem, hName⟩ := ih hRest
      exact ⟨other, List.mem_cons_of_mem call hMem, hName⟩

/-- All that calls do to a table is to write a log, of which each call contributes a piece on the
table that the calls before it have left: a binding its own pair, an evaluation the names of the
bindings in its expression, in their order, all of them if it has a value and the first of them if it
fails.  Afterwards a name has the value that was last written for it, or the one that it had before.
So no name is ever taken out of the table, and no name is touched that no call mentions. -/
theorem exists_logs_of_calls (table : Bindings) (calls : List Call) :
    ∃ logs : List (List (String × Int32)), logs.length = calls.length ∧
      (∀ (i : Nat) (call : Call) log, calls[i]? = some call → logs[i]? = some log →
        call.Writes (table.afterCalls (calls.take i)) log) ∧
      table.afterCalls calls = table.writeAll logs.flatten ∧
      (∀ name, (table.afterCalls calls).get? name =
        (logs.flatten.reverse.lookup name).or (table.get? name)) ∧
      (∀ name, (table.get? name).isSome → ((table.afterCalls calls).get? name).isSome) ∧
      ∀ name, (∀ call ∈ calls, name ∉ call.names) →
        (table.afterCalls calls).get? name = table.get? name := by
  refine ⟨table.logs calls, length_logs table calls, ?pieces, afterCalls_eq table calls, ?last,
    ?kept, ?frame⟩
  case pieces =>
    intro i call log hCall hLog
    rw [getElem?_logs, hCall] at hLog
    obtain rfl : call.log (table.afterCalls (calls.take i)) = log := Option.some.inj hLog
    exact call.writes_log _
  case last =>
    intro name
    rw [afterCalls_eq, get?_writeAll]
  case kept =>
    intro name hName
    rw [afterCalls_eq]
    exact isSome_get?_writeAll _ hName
  case frame =>
    intro name hNone
    rw [afterCalls_eq]
    apply get?_writeAll_of_not_mem
    intro hMem
    obtain ⟨call, hCall, hName⟩ := exists_call_of_mem_logs hMem
    exact hNone call hCall hName

/-- The second of three calls fails in its right operand, after `a` has been written and before `b`
is. -/
theorem exists_logs_of_failed_call :
    let failing := Expr.op .add (.binding "a" (.var "x") (.var "a"))
      (.binding "b" (.var "y") (.number 0))
    let calls := [Call.bind "x" 7, .eval failing, .eval (.binding "x" (.number 1) (.var "x"))]
    (failing.eval (empty.afterCalls (calls.take 1))).1 = .error (.unbound "y") ∧
      ((empty.afterCalls calls).get? "x" = some 1 ∧ (empty.afterCalls calls).get? "a" = some 7 ∧
        (empty.afterCalls calls).get? "b" = none) ∧
      (empty.afterCalls calls).get? "z" = empty.get? "z" ∧
      ∃ bound attempted rebound,
        empty.afterCalls calls = empty.writeAll (bound ++ (attempted ++ (rebound ++ []))) ∧
        bound = [("x", 7)] ∧ attempted.map Prod.fst <+: ["a", "b"] ∧
        rebound.map Prod.fst = ["x"] := by
  intro failing calls
  have hFails : (failing.eval (empty.afterCalls (calls.take 1))).1 = .error (.unbound "y") := by
    decide
  obtain ⟨logs, hLength, hPieces, hTable, -, -, hFrame⟩ := exists_logs_of_calls empty calls
  have hNone : ∀ call ∈ calls, "z" ∉ call.names := by decide
  obtain ⟨bound, attempted, rebound, rfl⟩ := List.length_eq_three.1 hLength
  refine ⟨hFails, by decide, hFrame "z" hNone, bound, attempted, rebound, hTable, ?_, ?_, ?_⟩
  · exact hPieces 0 _ bound rfl rfl
  · exact hPieces 1 _ attempted rfl rfl
  · exact hPieces 2 _ rebound rfl rfl

end Bindings
end PrefixCalc
