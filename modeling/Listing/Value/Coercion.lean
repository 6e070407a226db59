import Listing.Value.Kind
import Listing.Text.Case
import Listing.Calendar.Iso

/-!
# Reading request values by the kind of what they meet

A value from a request is mostly a text. `Value.coercedLike` reads it as the kind of a value in
memory, `ColumnType.coerced` as the kind of a column. A text that cannot be read so stays a text,
and every item of a list is read on its own.
-/

namespace Listing

namespace Coercion

/-- The words for true. -/
def trueWords : List String := ["true", "t", "1", "yes", "y", "on"]

/-- The words for false. -/
def falseWords : List String := ["false", "f", "0", "no", "n", "off"]

/-- Read a truth value. -/
def truth? (s : String) : Option Bool :=
  let word := Text.lower (Text.strip s)
  if trueWords.contains word then some true
  else if falseWords.contains word then some false
  else none

/-- A text with every `Z` replaced by the distance zero from universal time. -/
def withZeroOffset (s : String) : String :=
  String.ofList (s.toList.flatMap fun c => if c = 'Z' then "+00:00".toList else [c])

/-- Read a moment, in which `Z` stands for the distance zero from universal time. -/
def moment? (s : String) : Option Moment := Moment.ofText? (withZeroOffset s)

/-- A text as the kind of a value in memory. -/
def textLike (sample : Value) (s : String) : Value :=
  match sample with
  | .bool _ => ((truth? s).map .bool).getD (.text s)
  | .int _ => ((Number.readInteger? s).map .int).getD (.text s)
  | .binary _ => ((Number.readBinary? s).map .binary).getD (.text s)
  | .decimal _ => ((Decimal.ofText? s).map .decimal).getD (.text s)
  | .moment _ => ((moment? s).map .moment).getD (.text s)
  | .date _ => ((Date.ofText? s).map .date).getD (.text s)
  | _ => .text s

end Coercion

mutual

/-- A value as the kind of a sample value. -/
def Value.coercedLike (sample : Value) : Value → Value
  | .text s => Coercion.textLike sample s
  | .list vs => .list (coercedItemsLike sample vs)
  | .tuple vs => .list (coercedItemsLike sample vs)
  | v => v

/-- Values as the kind of a sample value. -/
def coercedItemsLike (sample : Value) : List Value → List Value
  | [] => []
  | v :: vs => Value.coercedLike sample v :: coercedItemsLike sample vs

end

/-- The type of a column. -/
inductive ColumnType
  | integer
  | text
  | boolean
  | date
  | moment (withOffset : Bool)
  /-- Numbers that are read as decimals. -/
  | decimal
  /-- Numbers that are read as binary numbers. -/
  | binary
  /-- A type that texts are not read by. -/
  | untyped
  deriving DecidableEq

namespace ColumnType

/-- A text as a value of the column. -/
def ofText (t : ColumnType) (s : String) : Value :=
  match t with
  | .moment withOffset =>
    match Coercion.moment? s with
    | some m => .moment (if withOffset then m else m.withoutOffset)
    | none => .text s
  | .date => ((Date.ofText? s).map .date).getD (.text s)
  | .boolean => ((Coercion.truth? s).map .bool).getD (.text s)
  | .integer => ((Number.readInteger? s).map .int).getD (.text s)
  | .decimal => ((Decimal.ofText? s).map .decimal).getD (.text s)
  | .binary => ((Number.readBinary? s).map .binary).getD (.text s)
  | .text | .untyped => .text s

mutual

/-- A request value as a value of the column. -/
def coerced (t : ColumnType) : Value → Value
  | .text s => t.ofText s
  | .list vs => .list (coercedItems t vs)
  | .tuple vs => .list (coercedItems t vs)
  | v => v

/-- Request values as values of the column. -/
def coercedItems (t : ColumnType) : List Value → List Value
  | [] => []
  | v :: vs => coerced t v :: coercedItems t vs

end

end ColumnType

end Listing
