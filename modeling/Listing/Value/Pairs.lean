import Listing.Slice
import Listing.Text.Split
import Listing.Value.Equality
import Listing.Value.Kind

/-!
# Lists in requests

A request lists things as a text with separators, as a collection, or as a map. `Value.pairs?` reads
a collection as keys and values, where an item of a list that is no map has its position for a key,
`Value.item` takes one item out, and `splitList` reads the pieces of a text.
-/

namespace Listing

namespace Value

/-- The keys and values of the items of a list from position `i` on. The entries of a map among them
keep their keys. -/
def positioned : Nat → List Value → List (Value × Value)
  | _, [] => []
  | i, .map es :: vs => es ++ positioned i vs
  | i, v :: vs => (.int i, v) :: positioned (i + 1) vs

/-- The keys and values of a collection. -/
def pairs? : Value → Option (List (Value × Value))
  | .map es => some es
  | .list vs | .tuple vs | .set vs => some (positioned 0 vs)
  | _ => none

/-- The item at a position. -/
def itemAt (vs : List Value) (position : Value) : Except Error Value :=
  match position with
  | .int _ | .bool _ => do
    match itemAt? vs (← position.toInt) with
    | some v => return v
    | none => .error .noPosition
  | _ => .error .wrongKind

/-- The item of a list at a position, or the value of a map under a key. -/
def item (v key : Value) : Except Error Value :=
  match v with
  | .map es =>
    if !key.hashable then .error .wrongKind
    else
      match Entries.get? es key with
      | some v => .ok v
      | none => .error .noKey
  | .set _ => .error .wrongKind
  | v => do itemAt (← v.items) key

/-- A key and a value that stand in a collection of two. -/
def entry (v : Value) : Except Error (Value × Value) := do
  match ← v.items with
  | [key, value] => if key.hashable then return (key, value) else .error .wrongKind
  | _ => .error .badValue

/-- The entries of a map, or of a collection of keys with values. -/
def toEntries : Value → Except Error Entries
  | .map es => .ok es
  | v => do return Entries.ofPairs (← (← v.items).mapM entry)

/-- Is the key a position? -/
def isPosition : Value → Bool
  | .int _ | .bool _ => true
  | _ => false

/-- The value without white space at its ends, if it is a text. -/
def stripped : Value → Value
  | .text s => .text (Text.strip s)
  | v => v

end Value

/-- The pieces of a text between separators, without blank ones and without white space at their
ends. The separator null stands for runs of white space. -/
def splitList (separator : Value) (s : String) : Except Error (List String) :=
  match separator with
  | .null => .ok (Text.words s)
  | .text sep =>
    if sep.toList.isEmpty then .error .badValue
    else .ok (((Text.splitOn sep s).map Text.strip).filter fun piece => !piece.toList.isEmpty)
  | _ => .error .wrongKind

/-- The pieces of a text between commas. -/
def commaList (s : String) : List String :=
  ((Text.splitOn "," s).map Text.strip).filter fun piece => !piece.toList.isEmpty

end Listing
