import Listing.Proofs.Calendar.Text
import Listing.Proofs.Number.Spelling
import Listing.Value.Coercion

/-!
# Values of a column's own type

A column has values of its own type: integers, texts, truth values, days of the calendar, moments
whose distance from universal time is not known, and numbers, decimal or binary, that are numbers.
A column without a type has none.
-/

namespace Listing

/-- Is the value one of the type? -/
inductive ColumnType.Owns : ColumnType → Value → Prop
  | integer (n : Int) : Owns .integer (.int n)
  | text (s : String) : Owns .text (.text s)
  | boolean (b : Bool) : Owns .boolean (.bool b)
  | date {d : Date} (h : d.Exists) : Owns .date (.date d)
  | moment (withOffset : Bool) {m : Moment} (h : m.Exists) (hoffset : m.offset = none) :
    Owns (.moment withOffset) (.moment m)
  | decimal {d : Decimal} (h : d.IsNumber) : Owns .decimal (.decimal d)
  | binary {x : Binary64} (h : x ≠ .nan) : Owns .binary (.binary x)

end Listing
