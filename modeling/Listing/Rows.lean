import Listing.Value

/-!
# Rows

What a source answers: plain values, or objects that refer to each other. A `Graph` names every
object by a key and lists it once, with the attributes that are loaded.
-/

namespace Listing

/-- An attribute of an object. -/
inductive Attribute
  | value (v : Value)
  /-- Another object. -/
  | one (key : String)
  /-- Other objects. -/
  | many (keys : List String)

/-- Objects that refer to each other. -/
structure Graph where
  /-- The keys of the rows. -/
  rows : List String
  /-- All objects that can be reached from the rows, in the order of their keys. -/
  objects : List (String × List (String × Attribute))

/-- The rows of an answer. -/
inductive Rows
  | plain (rows : List Value)
  | graph (g : Graph)

/-- The number of rows. -/
def Rows.length : Rows → Nat
  | .plain rows => rows.length
  | .graph g => g.rows.length

end Listing
