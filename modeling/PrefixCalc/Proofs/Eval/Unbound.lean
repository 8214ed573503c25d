import PrefixCalc.Proofs.Eval.Events
import PrefixCalc.Proofs.Eval.Scope

/-!
# Names without a value

Whether an evaluation meets a name without a value is decided by the order of its reads and writes
and by the names that the table holds, and never by a value.  If every read is served, by a write
before it or by the table, the evaluation does not fail for want of a name.  Otherwise it does not
get past the first read that is not served: it fails there, or a division by zero has stopped it
before.

A failure is described by what happened before it.  `FailsAfter` gives, for each way to fail, the
reads and writes that were done, and `FailsAfter.stops` says that all of these reads were served and
that the next event of the expression is the read that the error blames.
-/

namespace PrefixCalc

/-- The read that has failed, if it was a read. -/
def EvalError.blamed : EvalError → List Event
  | unbound name => [.read name]
  | divisionByZero => []

namespace Event

/-- Every read comes after a write of its name, unless the table has a value for it. -/
def Served (table : Bindings) (events : List Event) : Prop :=
  ∀ before name after, events = before ++ .read name :: after →
    .write name ∈ before ∨ (table.get? name).isSome

/-- The events have filled the table: it holds the names that they write, and besides these only
what it held before. -/
def Fills (table : Bindings) (events : List Event) (filled : Bindings) : Prop :=
  ∀ name, (filled.get? name).isSome ↔ .write name ∈ events ∨ (table.get? name).isSome

/-- The first read that is not served is one of the name, after the events `before`. -/
structure Misses (table : Bindings) (events before : List Event) (name : String) : Prop where
  reaches : before ++ [.read name] <+: events
  served : Served table before
  unwritten : .write name ∉ before
  absent : table.get? name = none

/-- The events `done` can be done, and the next one is the read that the error blames, if it blames
a read. -/
structure Stops (table : Bindings) (events done : List Event) (error : EvalError) : Prop where
  reaches : done ++ error.blamed <+: events
  served : Served table done
  missing : ∀ name, error = .unbound name → .write name ∉ done ∧ table.get? name = none

/-! ## Served reads -/

/-- What the table has to hold are the exposed names. -/
theorem served_iff (table : Bindings) (events : List Event) :
    Served table events ↔ ∀ name, Exposes events name → (table.get? name).isSome := by
  constructor
  · rintro hServed name ⟨before, after, hEvents, hWrite⟩
    exact (hServed before name after hEvents).resolve_left hWrite
  · intro hExposed before name after hEvents
    by_cases hWrite : .write name ∈ before
    · exact .inl hWrite
    · exact .inr (hExposed name ⟨before, after, hEvents, hWrite⟩)

instance (table : Bindings) (events : List Event) : Decidable (Served table events) :=
  decidable_of_iff _ (served_iff table events).symm

theorem served_append_iff (table : Bindings) (first second : List Event) :
    Served table (first ++ second) ↔ Served table first ∧
      ∀ name, Exposes second name → .write name ∈ first ∨ (table.get? name).isSome := by
  simp only [served_iff, exposes_append_iff]
  constructor
  · intro h
    refine ⟨fun name hFirst => h name (.inl hFirst), fun name hSecond => ?_⟩
    by_cases hWrite : .write name ∈ first
    · exact .inl hWrite
    · exact .inr (h name (.inr ⟨hWrite, hSecond⟩))
  · rintro ⟨hFirst, hSecond⟩ name (hName | ⟨hWrite, hName⟩)
    · exact hFirst name hName
    · exact (hSecond name hName).resolve_left hWrite

theorem served_nil (table : Bindings) : Served table [] := by
  simp [served_iff, not_exposes_nil]

theorem served_read_iff (table : Bindings) (name : String) :
    Served table [.read name] ↔ (table.get? name).isSome := by
  simp [served_iff, exposes_cons_iff, not_exposes_nil]

theorem served_concat_write_iff (table : Bindings) (events : List Event) (name : String) :
    Served table (events ++ [.write name]) ↔ Served table events := by
  simp [served_append_iff, exposes_cons_iff, not_exposes_nil]

theorem served_concat_read_iff (table : Bindings) (events : List Event) (name : String) :
    Served table (events ++ [.read name]) ↔
      Served table events ∧ (.write name ∈ events ∨ (table.get? name).isSome) := by
  simp [served_append_iff, exposes_cons_iff, not_exposes_nil]

/-- The second events are served by the table that the first ones fill. -/
theorem Served.append {table filled : Bindings} {first second : List Event}
    (hFirst : Served table first) (hFills : Fills table first filled)
    (hSecond : Served filled second) : Served table (first ++ second) := by
  rw [served_append_iff]
  exact ⟨hFirst, fun name hName => (hFills name).1 ((served_iff _ _).1 hSecond name hName)⟩

/-- Whatever goes as far as the first read that is not served is not served. -/
theorem Misses.not_served {table : Bindings} {events before other : List Event} {name : String}
    (h : Misses table events before name) (hReaches : before ++ [.read name] <+: other) :
    ¬ Served table other := by
  intro hServed
  obtain ⟨after, rfl⟩ := hReaches
  rcases hServed before name after (by rw [List.append_assoc]; rfl) with hMem | hSome
  · exact h.unwritten hMem
  · rw [h.absent] at hSome
    exact Bool.false_ne_true hSome

theorem exists_misses {table : Bindings} {events : List Event} (h : ¬ Served table events) :
    ∃ before name, Misses table events before name := by
  induction events using List.reverseRecOn with
  | nil => exact absurd (served_nil table) h
  | append_singleton events event ih =>
    by_cases hServed : Served table events
    · -- So the last event is the first read that is not served.
      cases event with
      | write name => exact absurd ((served_concat_write_iff table events name).2 hServed) h
      | read name =>
        rw [served_concat_read_iff, not_and, not_or] at h
        obtain ⟨hWrite, hNone⟩ := h hServed
        exact ⟨events, name, List.prefix_rfl, hServed, hWrite, by simpa using hNone⟩
    · obtain ⟨before, name, hMisses⟩ := ih hServed
      have hReaches := hMisses.reaches.trans (List.prefix_append events [event])
      exact ⟨before, name, { hMisses with reaches := hReaches }⟩

/-! ## Stopping -/

theorem Fills.bind {table filled : Bindings} {events : List Event} (h : Fills table events filled)
    (name : String) (value : Int32) :
    Fills table (events ++ [.write name]) (filled.bind name value) := by
  intro other
  by_cases hName : other = name
  · simp [hName]
  · simp [Bindings.get?_bind_of_ne, hName, h other]

theorem Fills.absent {table filled : Bindings} {events : List Event} {name : String}
    (h : Fills table events filled) (hNone : filled.get? name = none) :
    .write name ∉ events ∧ table.get? name = none := by
  have hNot := mt (h name).2 (by simp [hNone])
  rw [not_or] at hNot
  exact ⟨hNot.1, by simpa using hNot.2⟩

/-- A list of events is stopped when its first part is. -/
theorem Stops.of_first {table : Bindings} {first done : List Event} {error : EvalError}
    (h : Stops table first done error) (second : List Event) :
    Stops table (first ++ second) done error :=
  { h with reaches := h.reaches.trans (List.prefix_append first second) }

/-- A list of events is stopped when its second part is, on the table that the first one fills. -/
theorem Stops.of_second {table filled : Bindings} {first second done : List Event}
    {error : EvalError} (hFirst : Served table first) (hFills : Fills table first filled)
    (h : Stops filled second done error) : Stops table (first ++ second) (first ++ done) error where
  reaches := by
    rw [List.append_assoc]
    exact (List.prefix_append_right_inj first).2 h.reaches
  served := hFirst.append hFills h.served
  missing name hError := by
    obtain ⟨hDone, hNone⟩ := h.missing name hError
    obtain ⟨hWrite, hAbsent⟩ := hFills.absent hNone
    rw [List.mem_append, not_or]
    exact ⟨⟨hWrite, hDone⟩, hAbsent⟩

/-- The read that a stop blames is the first one that is not served. -/
theorem Stops.misses {table : Bindings} {events done : List Event} {name : String}
    (h : Stops table events done (.unbound name)) : Misses table events done name :=
  ⟨h.reaches, h.served, (h.missing name rfl).1, (h.missing name rfl).2⟩

theorem Misses.eq_of_prefix {table : Bindings} {events before other : List Event}
    {name otherName : String} (h : Misses table events before name)
    (hOther : Misses table events other otherName)
    (hPrefix : before ++ [.read name] <+: other ++ [.read otherName]) :
    before = other ∧ name = otherName := by
  rcases List.prefix_concat_iff.1 hPrefix with hSame | hBefore
  · obtain ⟨hEvents, hRead⟩ := List.append_inj' hSame rfl
    exact ⟨hEvents, Event.read.inj (List.singleton_inj.1 hRead)⟩
  · exact absurd hOther.served (h.not_served hBefore)

/-- There is only one first read that is not served. -/
theorem Misses.unique {table : Bindings} {events before other : List Event}
    {name otherName : String} (h : Misses table events before name)
    (hOther : Misses table events other otherName) :
    before = other ∧ name = otherName := by
  rcases List.prefix_or_prefix_of_prefix h.reaches hOther.reaches with hPrefix | hPrefix
  · exact h.eq_of_prefix hOther hPrefix
  · obtain ⟨hEvents, hName⟩ := hOther.eq_of_prefix h hPrefix
    exact ⟨hEvents.symm, hName.symm⟩

end Event

namespace Expr

/-! ## Failures -/

/-- The evaluation fails with the error when it has done the reads and writes of the list. -/
inductive FailsAfter : Expr → Bindings → List Event → EvalError → Prop
  | unbound {name : String} {table : Bindings} (absent : table.get? name = none) :
      FailsAfter (var name) table [] (.unbound name)
  | division {left right : Expr} {table afterLeft afterRight : Bindings} {l : Int32}
      (evalLeft : left.eval table = (.ok l, afterLeft))
      (evalRight : right.eval afterLeft = (.ok 0, afterRight)) :
      FailsAfter (op .div left right) table (left.events ++ right.events) .divisionByZero
  | left {operator : Operator} {left right : Expr} {table : Bindings} {done : List Event}
      {error : EvalError} (fails : FailsAfter left table done error) :
      FailsAfter (op operator left right) table done error
  | right {operator : Operator} {left right : Expr} {table afterLeft : Bindings} {l : Int32}
      {done : List Event} {error : EvalError} (evalLeft : left.eval table = (.ok l, afterLeft))
      (fails : FailsAfter right afterLeft done error) :
      FailsAfter (op operator left right) table (left.events ++ done) error
  | value {name : String} {value body : Expr} {table : Bindings} {done : List Event}
      {error : EvalError} (fails : FailsAfter value table done error) :
      FailsAfter (binding name value body) table done error
  | body {name : String} {value body : Expr} {table afterValue : Bindings} {v : Int32}
      {done : List Event} {error : EvalError} (evalValue : value.eval table = (.ok v, afterValue))
      (fails : FailsAfter body (afterValue.bind name v) done error) :
      FailsAfter (binding name value body) table (value.events ++ .write name :: done) error

/-- The evaluation has an error exactly if it fails with it somewhere. -/
theorem eval_eq_error_iff (e : Expr) (table : Bindings) (error : EvalError) :
    (e.eval table).1 = .error error ↔ ∃ done, e.FailsAfter table done error := by
  constructor
  · intro h
    induction e generalizing table with
    | number value => exact nomatch h
    | var name =>
      rw [eval] at h
      cases hGet : table.get? name with
      | some value => simp [hGet] at h
      | none =>
        obtain rfl : EvalError.unbound name = error := by simpa [hGet] using h
        exact ⟨[], .unbound hGet⟩
    | op operator left right ihLeft ihRight =>
      rw [eval] at h
      rcases hLeft : left.eval table with ⟨errorLeft | l, afterLeft⟩
      · obtain ⟨done, hFails⟩ := ihLeft table (by simpa [hLeft] using h)
        exact ⟨done, .left hFails⟩
      · rcases hRight : right.eval afterLeft with ⟨errorRight | r, afterRight⟩
        · obtain ⟨done, hFails⟩ := ihRight afterLeft (by simpa [hLeft, hRight] using h)
          exact ⟨_, .right hLeft hFails⟩
        · -- Both operands have values, so it is the operator that fails.
          simp only [hLeft, hRight] at h
          obtain ⟨rfl, rfl, rfl⟩ := Operator.apply_eq_error_iff.1 h
          exact ⟨_, .division hLeft hRight⟩
    | binding name value body ihValue ihBody =>
      rw [eval] at h
      rcases hValue : value.eval table with ⟨errorValue | v, afterValue⟩
      · obtain ⟨done, hFails⟩ := ihValue table (by simpa [hValue] using h)
        exact ⟨done, .value hFails⟩
      · obtain ⟨done, hFails⟩ := ihBody (afterValue.bind name v) (by simpa [hValue] using h)
        exact ⟨_, .body hValue hFails⟩
  · rintro ⟨done, hFails⟩
    induction hFails with
    | unbound absent => rw [eval, absent]
    | division evalLeft evalRight => rw [eval_op_fst, evalLeft]; simp [evalRight, Operator.apply]
    | left fails ih => rw [eval_op_fst, ih]
    | right evalLeft fails ih => rw [eval_op_fst, evalLeft]; simp only [ih]
    | value fails ih => rw [eval_binding_fst, ih]
    | body evalValue fails ih => rw [eval_binding_fst, evalValue]; simp only [ih]

/-- The table after a success holds what the events have written. -/
theorem fills_of_eval {e : Expr} {table after : Bindings} {value : Int32}
    (h : e.eval table = (.ok value, after)) : Event.Fills table e.events after := by
  intro name
  rw [isSome_get?_of_eval h, write_mem_events_iff]

/-- What a success has read was served. -/
theorem served_of_eval {e : Expr} {table after : Bindings} {value : Int32}
    (h : e.eval table = (.ok value, after)) : Event.Served table e.events := by
  induction e generalizing table after value with
  | number literal => exact Event.served_nil table
  | var name =>
    rw [events, Event.served_read_iff]
    cases hGet : table.get? name with
    | some found => rfl
    | none => simp [eval, hGet] at h
  | op operator left right ihLeft ihRight =>
    obtain ⟨l, r, afterLeft, hLeft, hRight, -⟩ := eval_op_eq_ok_iff.1 h
    exact (ihLeft hLeft).append (fills_of_eval hLeft) (ihRight hRight)
  | binding name value body ihValue ihBody =>
    obtain ⟨v, afterValue, hValue, hBody⟩ := eval_binding_eq_ok_iff.1 h
    rw [events, List.append_cons]
    exact ((Event.served_concat_write_iff table _ name).2 (ihValue hValue)).append
      ((fills_of_eval hValue).bind name v) (ihBody hBody)

/-- A failure has done what could be done, up to the read that it blames. -/
theorem FailsAfter.stops {e : Expr} {table : Bindings} {done : List Event} {error : EvalError}
    (h : e.FailsAfter table done error) : Event.Stops table e.events done error := by
  induction h with
  | unbound absent =>
    refine ⟨List.prefix_rfl, Event.served_nil _, ?_⟩
    rintro _ ⟨⟩
    exact ⟨List.not_mem_nil, absent⟩
  | division evalLeft evalRight =>
    refine ⟨by rw [EvalError.blamed, List.append_nil, events], ?_, fun _ hError => nomatch hError⟩
    exact (served_of_eval evalLeft).append (fills_of_eval evalLeft) (served_of_eval evalRight)
  | left fails ih => exact ih.of_first _
  | right evalLeft fails ih => exact ih.of_second (served_of_eval evalLeft) (fills_of_eval evalLeft)
  | value fails ih => exact ih.of_first _
  | @body name value body table afterValue v done error evalValue fails ih =>
    rw [events, List.append_cons, List.append_cons value.events (.write name) done]
    exact ih.of_second ((Event.served_concat_write_iff _ _ _).2 (served_of_eval evalValue))
      ((fills_of_eval evalValue).bind _ _)

/-- A division by zero that has stopped the evaluation comes before the first read that is not
served. -/
theorem FailsAfter.before_of_misses {e : Expr} {table : Bindings} {done before : List Event}
    {name : String} (h : e.FailsAfter table done .divisionByZero)
    (hMisses : Event.Misses table e.events before name) : done <+: before := by
  have hReaches : done <+: e.events := by simpa [EvalError.blamed] using h.stops.reaches
  have hNotAfter : ¬ before ++ [.read name] <+: done := fun hLate =>
    hMisses.not_served hLate h.stops.served
  rcases List.prefix_or_prefix_of_prefix hMisses.reaches hReaches with hLate | hEarly
  · exact absurd hLate hNotAfter
  · rcases List.prefix_concat_iff.1 hEarly with rfl | hBefore
    · exact absurd List.prefix_rfl hNotAfter
    · exact hBefore

/-- An expression whose reads are all served does not fail for want of a name.  Otherwise some read
is the first that is not served, and it is the one that the evaluation fails at, unless a division
by zero has stopped the evaluation among the events before that read. -/
theorem eval_of_served_or_misses (e : Expr) (table : Bindings) :
    (Event.Served table e.events → ∀ name, (e.eval table).1 ≠ .error (.unbound name)) ∧
      (¬ Event.Served table e.events → ∃ before name, Event.Misses table e.events before name) ∧
      ∀ before name, Event.Misses table e.events before name →
        (e.eval table).1 = .error (.unbound name) ∨
          (e.eval table).1 = .error .divisionByZero ∧
            ∃ done, done <+: before ∧ e.FailsAfter table done .divisionByZero := by
  refine ⟨?served, Event.exists_misses, ?misses⟩
  case served =>
    intro hServed name hError
    obtain ⟨done, hFails⟩ := (eval_eq_error_iff e table _).1 hError
    have hMisses := hFails.stops.misses
    exact hMisses.not_served hMisses.reaches hServed
  case misses =>
    intro before name hMisses
    rcases hOutcome : e.eval table with ⟨error | value, after⟩
    · have hError : (e.eval table).1 = .error error := by rw [hOutcome]
      obtain ⟨done, hFails⟩ := (eval_eq_error_iff e table error).1 hError
      cases error with
      | unbound other =>
        obtain ⟨-, rfl⟩ := hMisses.unique hFails.stops.misses
        exact .inl rfl
      | divisionByZero => exact .inr ⟨rfl, done, hFails.before_of_misses hMisses, hFails⟩
    · exact absurd (served_of_eval hOutcome) (hMisses.not_served hMisses.reaches)

/-- A name that is read again behind its binding, a name that is read in front of it, and a name
that is not read any more behind a division by zero. -/
theorem eval_misplaced_reads :
    let table := Bindings.empty.bind "y" 5
    let behind := op .add (binding "x" (number 1) (op .add (var "x") (var "y"))) (var "x")
    let inFront := op .sub (var "y") (op .add (var "x") (binding "x" (number 1) (var "x")))
    let divided := op .mul (op .div (var "y") (number 0)) (var "x")
    (Event.Served table behind.events ∧ (behind.eval table).1 = .ok 7 ∧
        ∀ name, (behind.eval table).1 ≠ .error (.unbound name)) ∧
      (¬ Event.Served table inFront.events ∧
        ∃ before name, Event.Misses table inFront.events before name) ∧
      (Event.Misses table inFront.events [.read "y"] "x" ∧
        (inFront.eval table).1 = .error (.unbound "x")) ∧
      Event.Misses table divided.events [.read "y"] "x" ∧
        ∃ done, done <+: [.read "y"] ∧ divided.FailsAfter table done .divisionByZero := by
  intro table behind inFront divided
  have hServed : Event.Served table behind.events := by decide
  have hFirst : Event.Served table [.read "y"] := by decide
  have hInFront : Event.Misses table inFront.events [.read "y"] "x" :=
    ⟨⟨_, rfl⟩, hFirst, by decide, rfl⟩
  have hNotServed : ¬ Event.Served table inFront.events := by decide
  have hDivided : Event.Misses table divided.events [.read "y"] "x" :=
    ⟨⟨_, rfl⟩, hFirst, by decide, rfl⟩
  obtain ⟨hNeverUnbound, -, -⟩ := eval_of_served_or_misses behind table
  obtain ⟨-, hExists, hOutcome⟩ := eval_of_served_or_misses inFront table
  obtain ⟨-, -, hStopped⟩ := eval_of_served_or_misses divided table
  refine ⟨⟨hServed, by decide, hNeverUnbound hServed⟩, ⟨hNotServed, hExists hNotServed⟩,
    ⟨hInFront, (hOutcome _ _ hInFront).resolve_right ?_⟩, hDivided,
    ((hStopped _ _ hDivided).resolve_left ?_).2⟩
  · exact fun hDivision => absurd hDivision.1 (by decide)
  · decide

end Expr
end PrefixCalc
