import Listing.Callback

/-!
# Includes

An include is what a request may load along by name: a relation, possibly refined, or whatever a
callback does.
-/

namespace Listing

/-- An include. -/
inductive Inclusion
  /-- A path of relations, and what refines the rows at its end, or null. -/
  | relation (path refinement : Value)
  | callback (function : Value)

namespace Inclusion

/-- The include as a value. -/
def toValue : Inclusion → Value
  | .relation path refinement => .finished Form.relation [path, refinement]
  | .callback function => .finished Form.inclusionCallback [function]

/-- The include that a value is. -/
def ofValue? : Value → Option Inclusion
  | .finished Form.relation [path, refinement] => some (.relation path refinement)
  | .finished Form.inclusionCallback [function] => some (.callback function)
  | _ => none

theorem ofValue?_toValue (i : Inclusion) : ofValue? i.toValue = some i := by cases i <;> rfl

/-- The script of an include that is requested by `name`. -/
def script (name : Value) : Inclusion → Script
  | .relation path refinement => .one (.load path refinement.argument)
  | .callback function => function.called { name := name }

end Inclusion

end Listing
