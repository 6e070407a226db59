import Listing.Dialect
import Listing.Filter
import Listing.Page
import Listing.Source.Capability
import Listing.Source.Sorting
import Listing.Value.Coercion

/-!
# Collections

A collection is a source of rows in memory: maps, or objects with attributes. Its predicates,
columns and orders pile up call by call; it has no relations, scopes and marks of deletion.

`Collection.listing` lists the rows that pass every predicate, in order. Pages cut that list, and a
cursor over a collection is a position in it.
-/

namespace Listing

/-- A condition on a row. -/
inductive Predicate
  | compare (name : Value) (comparison : Comparison) (value : Value)
  | member (name : Value) (values : List Value)
  | like (name : Value) (pattern : List Text.Part) (operator : LikeOperator)
  /-- One of the groups of conditions holds. -/
  | any (groups : List (List Predicate))

/-- A source of rows in memory. -/
structure Collection where
  rows : List Value
  operators : Operators := .builtin
  predicates : List Predicate := []
  columns : List Value := []
  orders : List (Value × Direction) := []

/-- The attribute of a row; null where the row has none of this name. -/
def readAttribute (row name : Value) : Except Error Value :=
  match row with
  | .map es =>
    if name.hashable then .ok ((Entries.get? es name).getD .null) else .error .wrongKind
  | row =>
    match name with
    | .text s => .ok ((row.attribute? s).getD .null)
    | _ => .error .wrongKind

/-- Is the value a number other than a decimal? -/
def isPlainNumber : Value → Bool
  | .bool _ | .int _ | .binary _ => true
  | _ => false

/-- The value of a row and a request value in a form in which they compare: the request value read
by the kind of the other, and both as texts where their kinds differ still. -/
def comparable (current value : Value) : Except Error (Value × Value) := do
  let v := Value.coercedLike current value
  if isPlainNumber current && isPlainNumber v then return (current, v)
  else if current.typeName = v.typeName then return (current, v)
  else return (.text (← current.asText), .text (← v.asText))

namespace Predicate

/-- Does a value of a row compare with a request value? Null compares with nothing. -/
def compares (c : Comparison) (current value : Value) : Except Error Bool :=
  match current, value with
  | .null, _ => .ok false
  | _, .null => .ok false
  | current, value => do
    let (a, b) ← comparable current value
    c.holds? a b

/-- Does a value of a row equal one of the values? -/
def equalsOne (current : Value) : List Value → Except Error Bool
  | [] => .ok false
  | v :: vs => do
    let (a, b) ← comparable current v
    if ← a.equal? b then return true else equalsOne current vs

/-- Does a text fit a pattern? -/
def fits (pattern : List Text.Part) (ignoresCase : Bool) (s : String) : Bool :=
  Text.matchesParts (if ignoresCase then Text.sameLetter else (· == ·)) pattern s.toList

mutual

/-- Does the condition hold for a row? -/
def holds (row : Value) : Predicate → Except Error Bool
  | .compare name c value => do compares c (← readAttribute row name) value
  | .member name values => do
    match ← readAttribute row name with
    | .null => return false
    | current => equalsOne current values
  | .like name pattern op => do
    match ← readAttribute row name with
    | .null => return false
    | current => return fits pattern op.ignoresCase (← current.asText) != op.negated
  | .any groups => oneHolds row groups

/-- Do all conditions hold for a row? -/
def allHold (row : Value) : List Predicate → Except Error Bool
  | [] => .ok true
  | p :: ps => do
    if ← holds row p then allHold row ps else return false

/-- Does one of the groups of conditions hold for a row? -/
def oneHolds (row : Value) : List (List Predicate) → Except Error Bool
  | [] => .ok false
  | ps :: groups => do
    if ← allHold row ps then return true else oneHolds row groups

end

end Predicate

namespace Collection

/-! ## Capabilities -/

/-- The collection with one more condition. -/
def filtered (c : Collection) (p : Predicate) : Collection :=
  { c with predicates := c.predicates ++ [p] }

/-- The collection as it was before any call. -/
def blank (c : Collection) : Collection := { rows := c.rows, operators := c.operators }

/-- Take a column into the selection. -/
def select (c : Collection) (column : Value) : Except Error Collection := do
  return if ← column.occursIn? c.columns then c else { c with columns := c.columns ++ [column] }

/-- Take columns into the selection. -/
def selectAll (c : Collection) (columns : Value) : Except Error Collection := do
  (← readColumns columns).foldlM select c

/-- Keep the rows whose attribute compares with a value. -/
def compare (c : Collection) (name operator value : Value) : Except Error Collection := do
  match ← c.operators.find? operator with
  | some comparison => return c.filtered (.compare name comparison value)
  | none => .error (.specification (.unsupportedCompareOperator operator))

/-- The pattern operator that is asked for: negated where it begins with `not`, without regard to
case where it ends with `ilike`. -/
def readLike (asked : Value) : Except Error LikeOperator :=
  match asked with
  | .text s =>
    let cs := (Text.lower s).toList
    .ok ⟨"not ".toList.isPrefixOf cs, "ilike".toList.isSuffixOf cs⟩
  | v =>
    if !v.truthy then .ok ⟨false, false⟩
    else .error (v.operationFault "lower")

/-- The parts of a pattern: a text, or a collection of texts. -/
def readPattern (pattern : Value) : Except Error (List Text.Part) := do
  match pattern with
  | .text s => return Text.parts s.toList
  | v =>
    match (← v.items).mapM Value.text? with
    | some pieces => return Text.partsOfPieces pieces
    | none => .error .wrongKind

/-- Keep the rows whose attribute fits a pattern. -/
def like (c : Collection) (name pattern operator : Value) : Except Error Collection := do
  let op ← readLike operator
  return c.filtered (.like name (← readPattern pattern) op)

/-- Order by an attribute. -/
def order (c : Collection) (column direction : Value) : Except Error Collection := do
  return { c with orders := c.orders ++ [(column, ← Direction.ofValue direction)] }

/-- Keep the rows that one of the branches keeps. -/
def any (c : Collection) (branches : List (Given Collection)) : Except Error Collection := do
  let groups ← branches.mapM fun branch => do return (← branch.run c.blank).predicates
  return if groups.isEmpty then c else c.filtered (.any groups)

/-- Do what a call asks for. -/
def ask (c : Collection) (capability : Capability) (given : List (Given Collection)) :
    Except Error Collection :=
  match capability, given with
  | .select, [.value column] => c.select column
  | .compare, [.value name, .value operator, .value value] => c.compare name operator value
  | .member, [.value name, .value values] => do return c.filtered (.member name (← values.items))
  | .like, [.value name, .value pattern] => c.like name pattern .null
  | .like, [.value name, .value pattern, .value operator] => c.like name pattern operator
  | .any, [branches] => do c.any (← branches.items)
  | .order, [.value column] => c.order column .null
  | .order, [.value column, .value direction] => c.order column direction
  | .has, _ | .scope, _ | .trashed _, _ | .load, _ | .aggregate, _ => .error .notSupported
  | _, _ => .error .wrongKind

/-- The selected columns, none of which means all. -/
def selectedColumns (c : Collection) : Option (List Value) :=
  if c.columns.isEmpty then none else some c.columns

/-! ## Answers -/

/-- Does a row pass every condition? -/
def passes (c : Collection) (row : Value) : Except Error Bool := Predicate.allHold row c.predicates

/-- The rows that pass every condition. -/
def passing (c : Collection) : Except Error (List Value) := c.rows.filterM c.passes

/-- The rows in the given orders, the first one being the most significant. -/
def ordered : List (Value × Direction) → List Value → Except Error (List Value)
  | [], rows => .ok rows
  | (column, direction) :: rest, rows => do
    sortByKey? (fun row => readAttribute row column) (direction = .descending) (← ordered rest rows)

/-- The rows that pass every condition, in order. -/
def listing (c : Collection) : Except Error (List Value) := do ordered c.orders (← c.passing)

/-- A row as a map of the selected columns. -/
def projectRow (c : Collection) (row : Value) : Except Error Value := do
  let es ← c.columns.mapM fun column => do return (column, ← readAttribute row column)
  return .map (Entries.ofPairs es)

/-- Rows with the selected columns, whole where none is selected. -/
def project (c : Collection) (rows : List Value) : Except Error (List Value) :=
  if c.columns.isEmpty then .ok rows else rows.mapM c.projectRow

/-- All rows. -/
def get (c : Collection) : Except Error (List Value) := do c.project (← c.listing)

/-- The number of rows. -/
def count (c : Collection) : Except Error Nat := do return (← c.passing).length

/-! ## Pages -/

/-- The rows from position `start` up to `stop`, with the selected columns. -/
def window (c : Collection) (rows : List Value) (start stop : Int) : Except Error Rows := do
  return .plain (← c.project (slice rows start stop))

/-- A page with the number of all rows. -/
def paginate (c : Collection) (perPage page : Int) (name : Value) : Except Error NumberedPage := do
  let rows ← c.listing
  let offset := (page - 1) * perPage
  NumberedPage.counted (← c.window rows offset (offset + perPage)) (.int rows.length)
    (.int perPage) (.int page) { name := name }

/-- A page without the number of all rows. -/
def simplePaginate (c : Collection) (perPage page : Int) (name : Value) :
    Except Error NumberedPage := do
  let rows ← c.listing
  let offset := (page - 1) * perPage
  return { items := ← c.window rows offset (offset + perPage), perPage := .int perPage
           current := .int page, more := .bool (offset + perPage < rows.length)
           links := { name := name } }

/-- The cursor at a position. -/
def cursorAt (position : Int) (forward : Bool) : Cursor :=
  ⟨[(.text "offset", .int position)], forward⟩

/-- The first position of the page at a cursor and the position after its last one, in a list of
`length` rows. -/
def bounds (length : Nat) (perPage : Int) : Option Cursor → Except Error (Int × Int)
  | none => .ok (0, perPage)
  | some cursor => do
    let offset ← cursor.offset
    if cursor.forward then return (offset, offset + perPage)
    else
      let stop := min offset length
      return (max (stop - perPage) 0, stop)

/-- The page at a cursor. -/
def cursorPage (c : Collection) (perPage : Int) (name : Value) (cursor : Value) :
    Except Error CursorPage := do
  let rows ← c.listing
  let cursor ← match cursor with
    | .null => pure none
    | token => (Cursor.decode token).map some
  let (start, stop) ← bounds rows.length perPage cursor
  return { items := ← c.window rows start stop, perPage := .int perPage
           cursor := CursorPage.ofCursor? cursor
           next := if stop < rows.length then (cursorAt stop true).toValue else .null
           previous := if 0 < start then (cursorAt start false).toValue else .null
           links := { name := name } }

/-! ## Running scripts -/

/-- Is the answer to a question nothing? -/
def peek (c : Collection) : Question → Except Error Bool
  | .selectedColumns => .ok c.columns.isEmpty
  | .ownName => .ok false
  | .first => do
    match (← c.get).head? with
    | none | some .null => return true
    | _ => return false
  | .rows => do
    let _ ← c.get
    return false
  | .count => do
    let _ ← c.count
    return false

/-- What calls do to a collection. -/
def capabilities : Capabilities Collection where
  ask := ask
  peek := peek

end Collection

end Listing
