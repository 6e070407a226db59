import Listing.Value.Equality
import Listing.Value.Kind

/-!
# Sort attributes

A sort attribute is what a request may order by: it stands for columns with directions, one list for
either direction of the request. What the lists hold is looked at when a request asks for them.
-/

namespace Listing

/-- Columns with directions, the most significant first. -/
abbrev Orders := List (Value × Value)

namespace Orders

/-- Orders as a value. -/
def toValue (os : Orders) : Value := .tuple (os.map fun o => .tuple [o.1, o.2])

/-- Put a direction under a column, which has to be able to be a key. A column that is there keeps
its place. -/
def insert (os : Orders) (column direction : Value) : Except Error Orders :=
  if column.hashable then .ok (Entries.insert os column direction) else .error .wrongKind

/-- A column and a direction, written as a collection of two. -/
def readOne (v : Value) : Except Error (Value × Value) := do
  match ← v.items with
  | [column, direction] => return (column, direction)
  | _ => .error .badValue

/-- The orders with those that a value lists laid over them. -/
def extend (os : Orders) (listed : Value) : Except Error Orders := do
  (← listed.items).foldlM (fun os v => do
    let (column, direction) ← readOne v
    insert os column direction) os

end Orders

/-- A sort attribute. -/
structure SortKey where
  name : Value
  ascending : Value
  descending : Value

namespace SortKey

/-- The text of the ascending direction. -/
def asc : Value := .text "asc"

/-- The text of the descending direction. -/
def desc : Value := .text "desc"

/-- A sort attribute, in which orders that count as nothing stand for the column of its own name. -/
def make (name ascending descending : Value) : SortKey :=
  { name
    ascending := if ascending.truthy then ascending else Orders.toValue [(name, asc)]
    descending := if descending.truthy then descending else Orders.toValue [(name, desc)] }

/-- The sort attribute as a value. -/
def toValue (k : SortKey) : Value := .finished Form.sortKey [k.name, k.ascending, k.descending]

/-- The sort attribute that a value is. -/
def ofValue? : Value → Option SortKey
  | .finished Form.sortKey [name, ascending, descending] => some ⟨name, ascending, descending⟩
  | _ => none

theorem ofValue?_toValue (k : SortKey) : ofValue? k.toValue = some k := rfl

/-- What the attribute lists for a direction. -/
def orders (k : SortKey) (descends : Bool) : Value := if descends then k.descending else k.ascending

end SortKey

end Listing
