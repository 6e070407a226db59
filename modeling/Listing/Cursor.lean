import Listing.Codec.Base64
import Listing.Codec.Json
import Listing.Codec.Utf8
import Listing.Value.Kind

/-!
# Cursors

A cursor is a place in an ordered listing, given by values of the ordering columns, and a direction.
`Cursor.encode` writes it as a token, `Cursor.decode` reads a token back: the token is base 64 of
a JSON object that holds the parameters and, under a key of its own, the direction.
-/

namespace Listing

/-- A place in a listing and the direction of paging from there. -/
structure Cursor where
  parameters : Entries
  forward : Bool := true

namespace Cursor

/-- The key of the direction. -/
def directionKey : Value := .text "_points_to_next_items"

/-- The cursor as a value. -/
def toValue (c : Cursor) : Value := .cursor c.parameters c.forward

/-- Are two cursors the same place and direction? -/
def equal (a b : Cursor) : Bool := a.toValue.equal b.toValue

/-- The parameter with a name. -/
def parameter (c : Cursor) (name : Value) : Except Error Value :=
  if !name.hashable then .error .wrongKind
  else
    match c.parameters.get? name with
    | some v => .ok v
    | none => .error (.query (.cursorParameterMissing name))

/-- The parameter with a name, which has to be a scalar or null. -/
def scalarParameter (c : Cursor) (name : Value) : Except Error Value := do
  let v ← c.parameter name
  match v with
  | .null => return v
  | v => if v.isScalar then return v else .error (.query .invalidCursor)

/-- The position that a cursor over a list holds. -/
def offset (c : Cursor) : Except Error Int := do
  let v ← c.parameter (.text "offset")
  if !v.isIntegerToken then .error (.query .invalidCursor)
  else
    let n ← v.toInt
    if n < 0 then .error (.query .invalidCursor) else return n

/-- The JSON object of a cursor. -/
def payload (c : Cursor) : Value := .map (c.parameters.insert directionKey (.bool c.forward))

/-- The token of a cursor. -/
def encode (c : Cursor) : Except Error String := do
  return String.ofList (Base64.encode (Utf8.encode (← Json.renderChars c.payload)))

/-- The octets that a token stands for. -/
def octets? (token : String) : Option (List UInt8) :=
  let cs := token.toList
  if cs.all fun c => c.toNat < 128 then
    Base64.decode? (cs ++ List.replicate ((4 - cs.length % 4) % 4) '=')
  else none

/-- The JSON value that a token stands for. -/
def payload? (token : String) : Except Error Value :=
  match (octets? token).bind Utf8.decode? with
  | none => .error (.query .invalidCursor)
  | some cs =>
    match Json.parse cs with
    | .ok v => .ok v
    | .error .tooDeep => .error .tooDeep
    | .error _ => .error (.query .invalidCursor)

/-- The cursor with the payload `es`. -/
def ofPayload (es : Entries) : Cursor :=
  { parameters := es.erase directionKey
    forward := ((es.get? directionKey).map Value.truthy).getD true }

/-- Read a token. A cursor stands for itself, and of any other value the text is read. -/
def decode : Value → Except Error Cursor
  | .cursor parameters forward => .ok ⟨parameters, forward⟩
  | token => do
    match ← payload? (← token.asText) with
    | .map es => return ofPayload es
    | _ => .error (.query .invalidCursor)

end Cursor

end Listing
