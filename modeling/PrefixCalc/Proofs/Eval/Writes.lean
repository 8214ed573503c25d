import Mathlib
import PrefixCalc.Eval

/-!
# What an evaluation writes

An evaluation changes the table by writing names and in no other way, and what it writes is known
without the table: the names of its bindings, in the order in which they are worked out.  `writes`
is the log of an evaluation, `eval_snd` says that the table afterwards is the one before with the
log written over it, and `names_writes_prefix` that a failure only cuts the log short.  So a name
that the expression does not bind keeps its value, whether the evaluation succeeds or not.
-/

namespace PrefixCalc
namespace Bindings

/-- The table after the writes of a log, the earliest first. -/
def writeAll (table : Bindings) (log : List (String × Int32)) : Bindings :=
  log.foldl (fun before write => before.bind write.1 write.2) table

@[simp]
theorem writeAll_nil (table : Bindings) : table.writeAll [] = table :=
  rfl

@[simp]
theorem writeAll_cons (table : Bindings) (write : String × Int32) (log : List (String × Int32)) :
    table.writeAll (write :: log) = (table.bind write.1 write.2).writeAll log :=
  rfl

theorem writeAll_append (table : Bindings) (earlier later : List (String × Int32)) :
    table.writeAll (earlier ++ later) = (table.writeAll earlier).writeAll later :=
  List.foldl_append

/-- A name that a log does not mention keeps its value. -/
theorem get?_writeAll_of_not_mem {log : List (String × Int32)} {name : String}
    (table : Bindings) (h : name ∉ log.map Prod.fst) :
    (table.writeAll log).get? name = table.get? name := by
  induction log generalizing table with
  | nil => rfl
  | cons write log ih =>
    rw [List.map_cons, List.mem_cons, not_or] at h
    rw [writeAll_cons, ih _ h.2, get?_bind_of_ne _ _ h.1]

/-- A log makes two tables agree on the names that it mentions, and keeps them in agreement on the
others. -/
theorem get?_writeAll_congr {log : List (String × Int32)} {name : String} {first second : Bindings}
    (h : name ∈ log.map Prod.fst ∨ first.get? name = second.get? name) :
    (first.writeAll log).get? name = (second.writeAll log).get? name := by
  induction log generalizing first second with
  | nil => exact h.resolve_left List.not_mem_nil
  | cons write log ih =>
    rw [writeAll_cons, writeAll_cons]
    apply ih
    by_cases hName : name = write.1
    · rw [hName, get?_bind_self, get?_bind_self]
      exact .inr rfl
    · rw [get?_bind_of_ne _ _ hName, get?_bind_of_ne _ _ hName]
      rw [List.map_cons, List.mem_cons] at h
      exact h.imp_left fun hMem => hMem.resolve_left hName

theorem isSome_get?_writeAll_iff (table : Bindings) (log : List (String × Int32)) (name : String) :
    ((table.writeAll log).get? name).isSome ↔
      name ∈ log.map Prod.fst ∨ (table.get? name).isSome := by
  induction log generalizing table with
  | nil => simp
  | cons write log ih =>
    rw [writeAll_cons, ih, List.map_cons, List.mem_cons]
    by_cases hName : name = write.1
    · simp [hName]
    · simp [hName, get?_bind_of_ne]

end Bindings

namespace Expr

/-- The names of all bindings, in the order in which they are written if nothing fails. -/
def boundNames : Expr → List String
  | number _ => []
  | var _ => []
  | op _ left right => left.boundNames ++ right.boundNames
  | binding name value body => value.boundNames ++ name :: body.boundNames

/-- What the evaluation of the expression writes, the earliest first. -/
def writes (e : Expr) (table : Bindings) : List (String × Int32) :=
  match e with
  | number _ => []
  | var _ => []
  | op _ left right =>
    left.writes table ++
      match left.eval table with
      | (.error _, _) => []
      | (.ok _, afterLeft) => right.writes afterLeft
  | binding name value body =>
    value.writes table ++
      match value.eval table with
      | (.error _, _) => []
      | (.ok v, afterValue) => (name, v) :: body.writes (afterValue.bind name v)

/-- The table after an evaluation is the one before with the log written over it. -/
theorem eval_snd (e : Expr) (table : Bindings) :
    (e.eval table).2 = table.writeAll (e.writes table) := by
  induction e generalizing table with
  | number value => rfl
  | var name =>
    rw [eval]
    split <;> rfl
  | op operator left right ihLeft ihRight =>
    have hLeft := ihLeft table
    rw [eval, writes, Bindings.writeAll_append, ← hLeft]
    rcases left.eval table with ⟨error | l, afterLeft⟩
    · rfl
    · have hRight := ihRight afterLeft
      simp only
      rw [← hRight]
      rcases right.eval afterLeft with ⟨error | r, afterRight⟩ <;> rfl
  | binding name value body ihValue ihBody =>
    have hValue := ihValue table
    rw [eval, writes, Bindings.writeAll_append, ← hValue]
    rcases value.eval table with ⟨error | v, afterValue⟩
    · rfl
    · exact ihBody (afterValue.bind name v)

/-- A log holds the names of the bindings in their order: all of them after a success, the first of
them after a failure. -/
theorem names_writes (e : Expr) (table : Bindings) :
    (e.writes table).map Prod.fst <+: e.boundNames ∧
      ∀ value, (e.eval table).1 = .ok value → (e.writes table).map Prod.fst = e.boundNames := by
  induction e generalizing table with
  | number value => exact ⟨List.prefix_rfl, fun _ _ => rfl⟩
  | var name => exact ⟨List.prefix_rfl, fun _ _ => rfl⟩
  | op operator left right ihLeft ihRight =>
    obtain ⟨hPrefixLeft, hAllLeft⟩ := ihLeft table
    rw [writes, boundNames, List.map_append, eval]
    rcases hLeft : left.eval table with ⟨error | l, afterLeft⟩
    · simp only [List.map_nil, List.append_nil]
      exact ⟨hPrefixLeft.trans (List.prefix_append _ _), fun _ h => nomatch h⟩
    · -- The left operand has a value, so its names are all there and those of the right one follow.
      obtain ⟨hPrefixRight, hAllRight⟩ := ihRight afterLeft
      rw [hAllLeft l (by rw [hLeft])]
      refine ⟨(List.prefix_append_right_inj _).2 hPrefixRight, ?_⟩
      intro value h
      rcases hRight : right.eval afterLeft with ⟨error | r, afterRight⟩
      · simp [hRight] at h
      · rw [hAllRight r (by rw [hRight])]
  | binding name value body ihValue ihBody =>
    obtain ⟨hPrefixValue, hAllValue⟩ := ihValue table
    rw [writes, boundNames, List.map_append, eval]
    rcases hValue : value.eval table with ⟨error | v, afterValue⟩
    · simp only [List.map_nil, List.append_nil]
      exact ⟨hPrefixValue.trans (List.prefix_append _ _), fun _ h => nomatch h⟩
    · obtain ⟨hPrefixBody, hAllBody⟩ := ihBody (afterValue.bind name v)
      rw [hAllValue v (by rw [hValue]), List.map_cons]
      refine ⟨(List.prefix_append_right_inj _).2 ((List.prefix_cons_inj name).2 hPrefixBody), ?_⟩
      intro result h
      rw [hAllBody result h]

theorem names_writes_prefix (e : Expr) (table : Bindings) :
    (e.writes table).map Prod.fst <+: e.boundNames :=
  (e.names_writes table).1

/-- An evaluation leaves the names alone that the expression does not bind. -/
theorem get?_eval_of_not_mem {e : Expr} {name : String} (table : Bindings)
    (h : name ∉ e.boundNames) : (e.eval table).2.get? name = table.get? name := by
  rw [eval_snd]
  apply Bindings.get?_writeAll_of_not_mem
  exact fun hMem => h ((e.names_writes_prefix table).subset hMem)

/-! ## Successful evaluations -/

theorem eval_op_eq_ok_iff {operator : Operator} {left right : Expr} {table after : Bindings}
    {result : Int32} :
    (op operator left right).eval table = (.ok result, after) ↔
      ∃ l r afterLeft, left.eval table = (.ok l, afterLeft) ∧
        right.eval afterLeft = (.ok r, after) ∧ operator.apply l r = .ok result := by
  rw [eval]
  constructor
  · intro h
    rcases hLeft : left.eval table with ⟨error | l, afterLeft⟩
    · simp [hLeft] at h
    · rcases hRight : right.eval afterLeft with ⟨error | r, afterRight⟩
      · simp [hLeft, hRight] at h
      · simp only [hLeft, hRight, Prod.mk.injEq] at h
        obtain ⟨hApply, rfl⟩ := h
        exact ⟨l, r, afterLeft, rfl, hRight, hApply⟩
  · rintro ⟨l, r, afterLeft, hLeft, hRight, hApply⟩
    simp only [hLeft, hRight, hApply]

theorem eval_binding_eq_ok_iff {name : String} {value body : Expr} {table after : Bindings}
    {result : Int32} :
    (binding name value body).eval table = (.ok result, after) ↔
      ∃ v afterValue, value.eval table = (.ok v, afterValue) ∧
        body.eval (afterValue.bind name v) = (.ok result, after) := by
  rw [eval]
  constructor
  · intro h
    rcases hValue : value.eval table with ⟨error | v, afterValue⟩
    · simp [hValue] at h
    · exact ⟨v, afterValue, rfl, by simpa only [hValue] using h⟩
  · rintro ⟨v, afterValue, hValue, hBody⟩
    simp only [hValue, hBody]

theorem eq_writeAll_of_eval {e : Expr} {table after : Bindings} {outcome : Except EvalError Int32}
    (h : e.eval table = (outcome, after)) : after = table.writeAll (e.writes table) := by
  rw [← eval_snd, h]

theorem names_writes_of_eval {e : Expr} {table after : Bindings} {value : Int32}
    (h : e.eval table = (.ok value, after)) : (e.writes table).map Prod.fst = e.boundNames :=
  (e.names_writes table).2 value (by rw [h])

/-- After a success the table has values for the names of the bindings, besides those that had one
before. -/
theorem isSome_get?_of_eval {e : Expr} {table after : Bindings} {value : Int32}
    (h : e.eval table = (.ok value, after)) (name : String) :
    (after.get? name).isSome ↔ name ∈ e.boundNames ∨ (table.get? name).isSome := by
  rw [eq_writeAll_of_eval h, Bindings.isSome_get?_writeAll_iff, names_writes_of_eval h]

end Expr
end PrefixCalc
