import Listing.Error
import Listing.Value.Attribute
import Listing.Value.Kind
import Listing.Value.Equality
import Listing.Codec.Percent

/-!
# Request parameters

Parameters are a nested map. In a query string a place in it is written as a path,
`name[segment]...[segment]`: `Params.ofPairs` puts the value of each pair at the place its name
writes, and `Params.flatten` lists the places again.

An empty segment stands for the number after the greatest one at that level, and a segment of digits
for a number. At the end a map whose keys are exactly the numbers from zero on becomes a list.
-/

namespace Listing.Params

/-! ## From pairs to a map -/

/-- Is the character a bracket? -/
def isBracket (c : Char) : Bool := c == '[' || c == ']'

/-- Read segments in brackets up to the end, which may be a line break. The `segment` that is open
is kept reversed. -/
def segmentsFrom : Option (List Char) → List Char → Option (List (List Char))
  | none, [] => some []
  | some _, [] => none
  | none, c :: cs =>
    if c = '[' then segmentsFrom (some []) cs
    else if c = '\n' && cs.isEmpty then some []
    else none
  | some segment, c :: cs =>
    if c = ']' then (segmentsFrom none cs).map (segment.reverse :: ·)
    else if c = '[' then none
    else segmentsFrom (some (c :: segment)) cs

/-- The path that a name writes: what stands before the first bracket, and the segments. -/
def path? (name : String) : Option (String × List String) :=
  let cs := name.toList
  let head := cs.takeWhile fun c => !isBracket c
  if head.isEmpty then none
  else (segmentsFrom none (cs.dropWhile fun c => !isBracket c)).map fun segments =>
    (String.ofList head, segments.map String.ofList)

/-- The number that a key is. -/
def index? : Value → Option Int
  | .int n => some n
  | .bool b => some (if b then 1 else 0)
  | _ => none

/-- The number after the greatest one among the keys. -/
def nextIndex (node : Entries) : Int :=
  match node.keys.filterMap index? with
  | [] => 0
  | n :: ns => ns.foldl max n + 1

/-- The key that a segment stands for in a map. -/
def segmentKey (node : Entries) (segment : String) : Except Error Value :=
  if segment.toList.isEmpty then .ok (.int (nextIndex node))
  else if segment.toList.all Text.isDigit then
    match Number.readInteger? segment with
    | some n => .ok (.int n)
    | none => .error .badValue
  else .ok (.text segment)

/-- The map under a key; anything else that is there makes room for one. -/
def child (node : Entries) (k : Value) : Entries :=
  match node.get? k with
  | some (.map es) => es
  | _ => []

/-- Put a value at the place that segments lead to. -/
def put (node : Entries) (segment : String) : List String → Value → Except Error Entries
  | [], v => do return node.insert (← segmentKey node segment) v
  | next :: rest, v => do
    let k ← segmentKey node segment
    return node.insert k (.map (← put (child node k) next rest v))

/-- Put a value at the place that a name writes; a name that writes no path is a key itself. -/
def putNamed (root : Entries) (name : String) (v : Value) : Except Error Entries :=
  match path? name with
  | none => .ok (root.insert (.text name) v)
  | some (head, segments) => put root head segments v

/-- The values under the numbers from `i` on, `n` of them. -/
def numbered (es : Entries) (i : Nat) : Nat → Option (List Value)
  | 0 => some []
  | n + 1 =>
    match es.get? (.int i) with
    | none => none
    | some v => (numbered es (i + 1) n).map (v :: ·)

/-- A map as a list, if its keys are exactly the numbers from zero on. -/
def asList (es : Entries) : Value :=
  if es.isEmpty || !es.keys.all fun k => (index? k).isSome then .map es
  else
    match numbered es 0 es.length with
    | some vs => .list vs
    | none => .map es

mutual

/-- The value with every map whose keys are the numbers from zero on as a list. -/
def listified : Value → Value
  | .map es => asList (listifiedEntries es)
  | v => v

/-- The entries with every map in them listified. -/
def listifiedEntries : List (Value × Value) → Entries
  | [] => []
  | (k, v) :: es => (k, listified v) :: listifiedEntries es

end

/-- How many levels of maps parameters may have. -/
def depthLimit : Nat := 490

mutual

/-- The number of levels of maps in a value. -/
def depth : Value → Nat
  | .map es => entriesDepth es + 1
  | _ => 0

/-- The number of levels of maps in the values of entries. -/
def entriesDepth : List (Value × Value) → Nat
  | [] => 0
  | (_, v) :: es => max (depth v) (entriesDepth es)

end

/-- The parameters that a map builds when it is complete: lists take the place of maps. -/
def complete (root : Entries) : Except Error Value :=
  if depthLimit < depth (.map root) then .error .tooDeep else .ok (listified (.map root))

/-- The map that pairs of names and values build, before it is listified. -/
def tree (pairs : List (String × Value)) : Except Error Entries :=
  pairs.foldlM (fun root p => putNamed root p.1 p.2) []

/-- The parameters that pairs of names and values write. -/
def ofPairs (pairs : List (String × Value)) : Except Error Value := do complete (← tree pairs)

/-- Put a value at its place, where both are written as a collection of two. -/
def putPair (root : Entries) (pair : Value) : Except Error Entries := do
  match ← pair.items with
  | [.text name, v] => putNamed root name v
  | [_, _] => .error .wrongKind
  | _ => .error .badValue

/-- The parameters that a collection of pairs writes. -/
def ofValue (pairs : Value) : Except Error Value := do
  complete (← (← pairs.items).foldlM putPair [])

/-! ## From a map to pairs -/

/-- The name of a place under `above`, the empty text being the root. -/
def nameUnder (above : String) (k : Value) : String :=
  if above.toList.isEmpty then k.toText else above ++ "[" ++ k.toText ++ "]"

mutual

/-- The places of a value with its name. A `null` has no place. -/
def flattenValue (name : String) : Value → List (String × String)
  | .null => []
  | .map es => flattenEntries name es
  | .list vs => flattenItems name 0 vs
  | .tuple vs => flattenItems name 0 vs
  | .bool b => [(name, if b then "1" else "0")]
  | v => [(name, v.toText)]

/-- The places of the entries of a map. -/
def flattenEntries (above : String) : List (Value × Value) → List (String × String)
  | [] => []
  | (k, v) :: es => flattenValue (nameUnder above k) v ++ flattenEntries above es

/-- The places of the items of a list from position `i` on. -/
def flattenItems (above : String) (i : Nat) : List Value → List (String × String)
  | [] => []
  | v :: vs => flattenValue (nameUnder above (.int i)) v ++ flattenItems above (i + 1) vs

end

mutual

/-- Do the keys, the positions and the leaves of a value have texts? -/
def writable : Value → Bool
  | .map es => entriesWritable es
  | .list vs | .tuple vs => vs.length ≤ integerLimit && allWritable vs
  | v => v.hasText

/-- Do the keys, the positions and the leaves of entries have texts? -/
def entriesWritable : List (Value × Value) → Bool
  | [] => true
  | (k, v) :: es => k.hasText && writable v && entriesWritable es

/-- Do the keys, the positions and the leaves of values have texts? -/
def allWritable : List Value → Bool
  | [] => true
  | v :: vs => writable v && allWritable vs

end

/-- The places of parameters, each with its name and its text. -/
def flatten (params : Entries) : List (String × String) := flattenEntries "" params

/-- The places of parameters under a name, unless a key or a value has no text. What counts as
nothing is no name. -/
def flattenUnder? (above : Value) (params : Entries) : Except Error (List (String × String)) := do
  let above ← if above.truthy then above.asText else pure ""
  if entriesWritable params then return flattenEntries above params else .error .badValue

/-! ## Requests -/

/-- The pairs of a query string as values. -/
def pairsOf (query : String) : List (String × Value) :=
  (QueryString.parse query).map fun p => (p.1, .text p.2)

/-- The parameters of a query string, with or without question marks in front. -/
def ofQuery (query : String) : Except Error Value :=
  ofPairs (pairsOf (String.ofList (query.toList.dropWhile (· == '?'))))

/-- The parameters of a value that is a query string. -/
def ofQueryValue (v : Value) : Except Error Value := do ofQuery (← v.textFor "lstrip")

/-- The parameters of a request: a map, a query string, or a request that has one. -/
def ofRequest : Value → Except Error Value
  | .null => .ok (.map [])
  | .request _ query => ofPairs (pairsOf query)
  | .text query => ofQuery query
  | .map es => .ok (.map es)
  | v => .error (.specification (.unsupportedRequest v.typeName))

/-- A path as it is written in an address: a backslash, a question mark and a number sign as octets,
and the second one of two slashes at the beginning too. -/
def writtenPath (path : String) : List Char :=
  let cs := match path.toList with
    | '/' :: '/' :: rest => "/%2F".toList ++ rest
    | cs => cs
  cs.flatMap fun c =>
    if c = '?' then "%3F".toList
    else if c = '#' then "%23".toList
    else if c = '\\' then "%5C".toList
    else [c]

/-- Can the character stand in the scheme of an address? -/
def isSchemeChar (c : Char) : Bool := c.isAlphanum || c == '+' || c == '-' || c == '.'

/-- What comes after the scheme of an address, if it has one. -/
def afterScheme (cs : List Char) : List Char :=
  match cs with
  | c :: _ =>
    match cs.dropWhile isSchemeChar with
    | ':' :: rest => if c.isAlpha then rest else cs
    | _ => cs
  | [] => []

/-- What comes after the host of an address, if it has one. A bracket in the host has a partner. -/
def afterHost (cs : List Char) : Except Error (List Char) :=
  match cs with
  | '/' :: '/' :: rest =>
    let host := rest.takeWhile (· != '/')
    if host.contains '[' == host.contains ']' then .ok (rest.dropWhile (· != '/'))
    else .error .badValue
  | cs => .ok cs

/-- The path of an address without a query. Control characters and blanks in front are left out, and
line breaks and tabulators everywhere. -/
def addressPath (cs : List Char) : Except Error String := do
  let kept := (cs.dropWhile fun c => c.toNat ≤ 32).filter fun c =>
    !(c == '\t' || c == '\r' || c == '\n')
  return String.ofList (← afterHost (afterScheme kept))

/-- The path of a request. -/
def pathOf : Value → Except Error (Option String)
  | .request path _ => (addressPath (writtenPath path)).map some
  | _ => .ok none

end Listing.Params
