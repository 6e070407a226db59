import Listing.Error
import Listing.Text.Blank
import Listing.Number.Reader

/-!
# Kinds of values

What a value counts as: a scalar, something left out (`isEmpty`), a written integer
(`isIntegerToken`), a collection with items, a truth value, a whole number.
-/

namespace Listing.Value

/-- Is the value null? -/
def isNull : Value → Bool
  | .null => true
  | _ => false

/-- Is the value a text, a number, a truth value or a date? -/
def isScalar : Value → Bool
  | .bool _ | .int _ | .binary _ | .decimal _ | .text _ | .moment _ | .date _ => true
  | _ => false

/-- Does the value count as not given? Blank texts and empty collections do. -/
def isEmpty : Value → Bool
  | .null => true
  | .text s => Text.isBlankText s
  | .list vs | .tuple vs | .set vs => vs.isEmpty
  | .map es => es.isEmpty
  | _ => false

/-- Is the value an integer, or a text of digits `0` to `9`? -/
def isIntegerToken : Value → Bool
  | .int _ => true
  | .text s => !s.toList.isEmpty && s.toList.all Text.isAsciiDigit
  | _ => false

/-- Does the value count as true? -/
def truthy : Value → Bool
  | .null => false
  | .bool b => b
  | .int n => n != 0
  | .binary x => !x.isZero
  | .decimal d => !d.isZero
  | .text s => !s.toList.isEmpty
  | .bytes os => !os.isEmpty
  | .list vs | .tuple vs | .set vs => !vs.isEmpty
  | .map es => !es.isEmpty
  | _ => true

/-- The items of a collection; those of a map are its keys. -/
def collection? : Value → Option (List Value)
  | .list vs | .tuple vs | .set vs => some vs
  | .map es => some (es.map Prod.fst)
  | _ => none

/-- Does the value count as a collection that can be walked over? A request is a map of what is
known about it. -/
def isIterable : Value → Bool
  | .request _ _ => true
  | v => v.collection?.isSome

/-- What a walk over the value yields: the items of a collection, the characters of a text, the
octets of bytes. -/
def items : Value → Except Error (List Value)
  | .text s => .ok (s.toList.map fun c => .text (String.singleton c))
  | .bytes os => .ok (os.map fun o => .int o.toNat)
  | v =>
    match v.collection? with
    | some vs => .ok vs
    | none => .error .wrongKind

/-- The whole number that a value stands for. -/
def toInt : Value → Except Error Int
  | .bool b => .ok (if b then 1 else 0)
  | .int n => .ok n
  | .binary (.finite negative m e) => .ok (Exact.ofBinary negative m e).truncate
  | .binary (.infinite _) | .decimal (.infinite _) => .error .overflow
  | .decimal (.finite negative c e) => .ok (Exact.mk negative c e).truncate
  | .binary .nan | .decimal (.nan _ _ _) => .error .badValue
  | .text s => ((Number.readInteger? s).map .ok).getD (.error .badValue)
  | .bytes os =>
    let digits := String.ofList (os.map fun o => Char.ofNat o.toNat)
    if os.all (· < 128) then ((Number.readInteger? digits).map .ok).getD (.error .badValue)
    else .error .badValue
  | _ => .error .wrongKind

mutual

/-- Can the value be a key of a map? -/
def hashable : Value → Bool
  | .decimal (.nan _ signaling _) => !signaling
  | .list _ | .set _ | .map _ | .cursor _ _ => false
  | .tuple vs => allHashable vs
  | .finished form parts => form.isFrozen && allHashable parts
  | _ => true

/-- Can all values be keys of a map? -/
def allHashable : List Value → Bool
  | [] => true
  | v :: vs => hashable v && allHashable vs

end

/-- The text of a value if it is one. -/
def text? : Value → Option String
  | .text s => some s
  | _ => none

/-- The entries of a map, where named values are looked up. -/
def entries : Value → Except Error Entries
  | .map es => .ok es
  | _ => .error .noMember

end Listing.Value
