/-!
# The table of bindings

One flat table from names to words.  Writing a name hides what the name had before; nothing is ever
removed.  Two tables are equal when they answer every look-up alike, whatever was written to them
and in which order.
-/

namespace PrefixCalc

/-- A table from names to words. -/
@[ext]
structure Bindings where
  /-- The value last written for a name. -/
  get? : String → Option Int32

namespace Bindings

/-- The table in which no name has a value. -/
def empty : Bindings where
  get? _ := none

/-- The table after a value has been written for a name. -/
def bind (table : Bindings) (name : String) (value : Int32) : Bindings where
  get? other := if other = name then some value else table.get? other

@[simp]
theorem get?_empty (name : String) : empty.get? name = none :=
  rfl

@[simp]
theorem get?_bind_self (table : Bindings) (name : String) (value : Int32) :
    (table.bind name value).get? name = some value := by
  simp [bind]

theorem get?_bind_of_ne (table : Bindings) {name other : String} (value : Int32)
    (h : other ≠ name) : (table.bind name value).get? other = table.get? other := by
  simp [bind, h]

end Bindings
end PrefixCalc
