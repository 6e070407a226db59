import Listing.Callback

/-!
# Fields

A field is what a request may select by name: a column, an aggregate over related rows, whatever a
callback does, or the fields of a relation, which form a group.
-/

namespace Listing

/-- A field. -/
inductive Field
  | column (name : Value)
  | callback (function : Value)
  | aggregate (relation column function : Value)
  /-- The fields of a relation, a map from names to fields. -/
  | group (name fields : Value)

namespace Field

/-- The field as a value. -/
def toValue : Field → Value
  | .column name => .finished Form.column [name]
  | .callback function => .finished Form.fieldCallback [function]
  | .aggregate relation own function => .finished Form.relationAggregate [relation, own, function]
  | .group name fields => .finished Form.fieldGroup [name, fields]

/-- The field that a value is. -/
def ofValue? : Value → Option Field
  | .finished Form.column [name] => some (.column name)
  | .finished Form.fieldCallback [function] => some (.callback function)
  | .finished Form.relationAggregate [relation, own, function] =>
    some (.aggregate relation own function)
  | .finished Form.fieldGroup [name, fields] => some (.group name fields)
  | _ => none

theorem ofValue?_toValue (f : Field) : ofValue? f.toValue = some f := by cases f <;> rfl

/-- Is the field a group? -/
def isGroup : Field → Bool
  | .group _ _ => true
  | _ => false

/-- The script of a field that is selected by `name`. A group has none of its own. -/
def script (name : Value) : Field → Script
  | .column own => .one (.select own)
  | .callback function => function.called { name := name }
  | .aggregate relation own function => .one (.aggregate relation own function)
  | .group _ _ => .fail .noMember

end Field

end Listing
