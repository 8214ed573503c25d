import PrefixCalc.Proofs.Eval.Writes

/-!
# Reads and writes in order

Which names an evaluation reads and writes, and in which order, is known from the expression alone:
`events` lists what happens when nothing fails.  A name is *exposed* when some read of it comes
before every write of it.  Such a read looks into the table that the evaluation was given; every
other one finds what the evaluation has written itself.  This is not freeness in the sense of
lexical scope: in `add(let(x, 1, add(x, 0)), x)` the last `x` is free and not exposed.
-/

namespace PrefixCalc

/-- What an evaluation does with the table. -/
inductive Event where
  | read (name : String)
  | write (name : String)
  deriving DecidableEq, Repr

namespace Event

/-- The name that is read or written. -/
def name : Event → String
  | read name => name
  | write name => name

/-- Some read of the name comes before every write of it. -/
def Exposes (events : List Event) (name : String) : Prop :=
  ∃ before after, events = before ++ .read name :: after ∧ .write name ∉ before

theorem not_exposes_nil (name : String) : ¬ Exposes [] name := by
  rintro ⟨before, after, hEvents, -⟩
  exact List.cons_ne_nil _ _ (List.append_eq_nil_iff.1 hEvents.symm).2

theorem exposes_cons_iff (event : Event) (events : List Event) (name : String) :
    Exposes (event :: events) name ↔
      event = .read name ∨ .write name ≠ event ∧ Exposes events name := by
  constructor
  · rintro ⟨before, after, hEvents, hWrite⟩
    cases before with
    | nil => exact .inl (List.cons.inj hEvents).1
    | cons first before =>
      obtain ⟨rfl, rfl⟩ := List.cons.inj hEvents
      rw [List.mem_cons, not_or] at hWrite
      exact .inr ⟨hWrite.1, before, after, rfl, hWrite.2⟩
  · rintro (rfl | ⟨hNe, before, after, rfl, hWrite⟩)
    · exact ⟨[], events, rfl, List.not_mem_nil⟩
    · exact ⟨event :: before, after, rfl, List.not_mem_cons_of_ne_of_not_mem hNe hWrite⟩

/-- What follows the first events exposes the names that these have not written. -/
theorem exposes_append_iff (first second : List Event) (name : String) :
    Exposes (first ++ second) name ↔
      Exposes first name ∨ .write name ∉ first ∧ Exposes second name := by
  induction first with
  | nil => simp [not_exposes_nil]
  | cons event first ih =>
    rw [List.cons_append, exposes_cons_iff, ih, exposes_cons_iff, List.mem_cons, not_or]
    tauto

/-- To look at all exposed names it is enough to look at the names of the events. -/
theorem forall_exposes_iff {events : List Event} {p : String → Prop} :
    (∀ name, Exposes events name → p name) ↔
      ∀ event ∈ events, Exposes events event.name → p event.name := by
  constructor
  · exact fun h event _ => h event.name
  · intro h name hExposes
    obtain ⟨before, after, hEvents, -⟩ := id hExposes
    exact h (.read name) (by simp [hEvents]) hExposes

instance decidableExposes :
    (events : List Event) → (name : String) → Decidable (Exposes events name)
  | [], name => .isFalse (not_exposes_nil name)
  | event :: events, name =>
    have := decidableExposes events name
    decidable_of_iff _ (exposes_cons_iff event events name).symm

instance {events : List Event} {p : String → Prop} [DecidablePred p] :
    Decidable (∀ name, Exposes events name → p name) :=
  decidable_of_iff _ forall_exposes_iff.symm

end Event

namespace Expr

/-- The reads and writes of the expression, in the order in which they happen if nothing fails. -/
def events : Expr → List Event
  | number _ => []
  | var name => [.read name]
  | op _ left right => left.events ++ right.events
  | binding name value body => value.events ++ .write name :: body.events

/-- The name is read before the evaluation has written it. -/
def Exposed (e : Expr) (name : String) : Prop :=
  Event.Exposes e.events name

instance {e : Expr} {p : String → Prop} [DecidablePred p] :
    Decidable (∀ name, e.Exposed name → p name) :=
  inferInstanceAs (Decidable (∀ name, Event.Exposes e.events name → p name))

/-- The names that are written are those of the bindings. -/
theorem write_mem_events_iff (e : Expr) (name : String) :
    .write name ∈ e.events ↔ name ∈ e.boundNames := by
  induction e with
  | number value => simp [events, boundNames]
  | var other => simp [events, boundNames]
  | op operator left right ihLeft ihRight => simp [events, boundNames, ihLeft, ihRight]
  | binding other value body ihValue ihBody => simp [events, boundNames, ihValue, ihBody]

@[simp]
theorem not_exposed_number (value : Int32) (name : String) : ¬ (number value).Exposed name :=
  Event.not_exposes_nil name

@[simp]
theorem exposed_var_iff (other name : String) : (var other).Exposed name ↔ name = other := by
  simp [Exposed, events, Event.exposes_cons_iff, Event.not_exposes_nil, eq_comm]

@[simp]
theorem exposed_op_iff (operator : Operator) (left right : Expr) (name : String) :
    (op operator left right).Exposed name ↔
      left.Exposed name ∨ name ∉ left.boundNames ∧ right.Exposed name := by
  rw [Exposed, events, Event.exposes_append_iff, write_mem_events_iff]
  rfl

@[simp]
theorem exposed_binding_iff (other : String) (value body : Expr) (name : String) :
    (binding other value body).Exposed name ↔
      value.Exposed name ∨ name ∉ value.boundNames ∧ name ≠ other ∧ body.Exposed name := by
  rw [Exposed, events, Event.exposes_append_iff, write_mem_events_iff, Event.exposes_cons_iff]
  simp [Exposed]

/-- What an operand on the left binds is not exposed on the right, and the other way round it is. -/
example :
    let bound := binding "x" (number 1) (op .add (var "x") (number 0))
    ¬ Event.Exposes (op .add bound (var "x")).events "x" ∧
      Event.Exposes (op .add (var "x") bound).events "x" := by
  decide

end Expr
end PrefixCalc
