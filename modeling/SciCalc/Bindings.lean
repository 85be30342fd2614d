/-
  Named values.

  Variables keep the order in which they were first bound; binding a name again keeps its place.
-/
import SciCalc.Value.Basic

namespace SciCalc

/-- Values by name. -/
abbrev Bindings := List (String × Value)

namespace Bindings

/-- The value of a name. -/
def find? (b : Bindings) (name : String) : Option Value := (List.find? (·.1 = name) b).map (·.2)

/-- The name has a value. -/
def contains (b : Bindings) (name : String) : Bool := (b.find? name).isSome

/-- Binds a name: in its place if it is bound, and else at the end. -/
def put (name : String) (v : Value) : Bindings → Bindings
  | [] => [(name, v)]
  | entry :: rest => if entry.1 = name then (name, v) :: rest else entry :: put name v rest

/-- The bindings without a name. -/
def erase (b : Bindings) (name : String) : Bindings := b.filter (·.1 ≠ name)

end Bindings

end SciCalc
