import Listing.Page
import Listing.Relational.Query

/-!
# Fetching

`Query.fetch` looks the rows of a query up: those that meet its criteria, in order, and of them a
window. Rows of a mapped entity become objects in a store, with their relations and aggregates
loaded; rows of a table become maps of their columns.

Pages between cursors are cut by key: a cursor holds the values of the order columns at a row, and
`Query.beyond` is the criterion for the rows beyond it.
-/

namespace Listing

/-- A window of rows. -/
structure Window where
  /-- How many rows at most; a negative number stands for all. -/
  limit : Option Int := none
  /-- How many rows are left out before; a negative number stands for none. -/
  offset : Option Int := none

namespace Window

/-- The rows in the window. -/
def cut {α : Type} (w : Window) (rows : List α) : List α :=
  let rest := rows.drop ((w.offset.getD 0).toNat)
  match w.limit with
  | some n => if n < 0 then rest else rest.take n.toNat
  | none => rest

/-- The bounds of the window as parameters. A window with one bound has the other one too. -/
def parameters (w : Window) : List Parameter :=
  match w.limit, w.offset with
  | none, none => []
  | limit, offset => [.integer (limit.getD (-1)), .integer (offset.getD 0)]

end Window

/-- What a query looks up: rows, and the objects that they are. -/
structure Fetched where
  rows : List TableRow
  store : Store := []

namespace Query

/-- A query is looked up in a session. -/
def requireSession (q : Query) : Except Error Unit :=
  if q.connected then .ok () else .error (.specification .sessionRequired)

/-- The rows that meet the criteria, in the order of their primary key. -/
def matching (q : Query) : Except Error (List TableRow) :=
  q.criterion.select q.db.content (q.db.content.rowsOf q.entity.table)

/-- The number of rows. -/
def count (q : Query) : Except Error Nat := do
  q.requireSession
  if let some fault := q.criterion.fault? [] false then throw fault
  return (← q.matching).length

/-- The objects that rows are, with what is loaded along. -/
def objects (q : Query) (rows : List TableRow) : Except Error Store := do
  let columns := q.selectedColumnList
  let store := q.entity.fillAll columns rows []
  let store ← if rows.isEmpty then pure store
    else q.db.load q.loadings.flatten q.entity (rows.map fun row => ⟨row, true⟩) store
  rows.foldlM (fun s row => q.aggregates.foldlM (fun s a => do
    let v ← a.value q.db.content q.entity row
    return s.set (q.entity.keyOf row) a.label (.value v)) s) store

/-- Look up a window of the rows. -/
def fetch (q : Query) (w : Window) : Except Error Fetched := do
  q.requireSession
  if q.misled then throw .badSelection
  if let some fault := q.criterion.fault? w.parameters (q.aggregates.any Aggregate.meaningless) then
    throw fault
  let rows := w.cut (TableRow.sortBy q.sorting (← q.matching))
  return { rows := rows, store := ← if q.entity.mapped then q.objects rows else pure [] }

/-- The columns that a row of a table is a map of. -/
def taken (q : Query) : List Column :=
  if q.columns.isEmpty then q.projection else q.selectedColumnList

/-- Some of the rows that were looked up as an answer. -/
def answer (q : Query) (f : Fetched) (rows : List TableRow) : Rows :=
  if !q.entity.mapped then
    .plain (rows.map fun row => .map (Entries.ofPairs
      (q.taken.map fun c => (.text c.name, row.get c.name))))
  else if rows.isEmpty then .plain []
  else .graph (f.store.graph (rows.map q.entity.keyOf))

/-- All rows. -/
def get (q : Query) : Except Error Rows := do
  let f ← q.fetch {}
  return q.answer f f.rows

/-- The first row, if there is one. -/
def first (q : Query) : Except Error Rows := do
  let f ← q.fetch { limit := some 1 }
  return q.answer f f.rows

/-! ## Pages -/

/-- A page with the number of all rows. -/
def paginate (q : Query) (perPage page : Int) (name : Value) : Except Error NumberedPage := do
  let total ← q.count
  let f ← q.fetch ⟨some perPage, some ((page - 1) * perPage)⟩
  NumberedPage.counted (q.answer f f.rows) (.int total) (.int perPage) (.int page)
    { name := name }

/-- A page without the number of all rows. -/
def simplePaginate (q : Query) (perPage page : Int) (name : Value) : Except Error NumberedPage := do
  let f ← q.fetch ⟨some (perPage + 1), some ((page - 1) * perPage)⟩
  return { items := q.answer f (slice f.rows 0 perPage), perPage := .int perPage
           current := .int page, more := .bool (perPage < f.rows.length)
           links := { name := name } }

/-- Order by the primary key if there is no order. -/
def keyed (q : Query) : Except Error Query :=
  if q.orders.isEmpty then q.entity.key.foldlM (fun q name => q.order (.text name) .ascending) q
  else .ok q

/-- The value of a cursor for an order column, read by the column. -/
def placeOf (q : Query) (cursor : Cursor) (name : Value) : Except Error (Column × Value) := do
  let column ← q.columnOf name
  let v ← cursor.scalarParameter name
  return (column, column.type.coerced v)

/-- The criterion for the rows beyond a cursor, in the direction of the cursor. `equal` are the
criteria that a row ties with the cursor in the orders before. -/
def beyond (q : Query) (cursor : Cursor) (equal : List Criterion) :
    List (Value × Direction) → Except Error (List Criterion)
  | [] => .ok []
  | (name, direction) :: rest => do
    let (column, v) ← q.placeOf cursor name
    let c : Comparison := if (direction == .ascending) == cursor.forward then .greater else .less
    let past ← Criterion.comparing q.entity.name column c v
    let tie ← Criterion.comparing q.entity.name column .equal v
    return .all (equal ++ [past]) :: (← q.beyond cursor (equal ++ [tie]) rest)

/-- The query for the rows from a cursor on. It runs backward from a cursor that points backward, by
the order columns alone. -/
def fromCursor (q : Query) (cursor : Cursor) : Except Error Query := do
  let q := q.filtered (.any (← q.beyond cursor [] q.orders))
  if cursor.forward then return q
  else
    let sorting ← q.orders.mapM fun o => do return (← q.columnOf o.1, o.2 != .descending)
    return { q with sorting := sorting }

/-- The value of a row under an order column. A map has the columns that were taken. -/
def read (q : Query) (row : TableRow) (name : Value) : Except Error Value := do
  let column ← q.columnOf name
  if q.entity.mapped || (q.taken.any fun c => name.equal (.text c.name)) then
    return row.get column.name
  else .error .noKey

/-- The page at a cursor. The objects that the cursors to its neighbours are made from have their
order columns loaded. -/
def cursorPage (q : Query) (perPage : Int) (name cursor : Value) : Except Error CursorPage := do
  let q ← q.keyed
  let cursor ← match cursor with
    | .null => pure none
    | token => (Cursor.decode token).map some
  let place ← match cursor with
    | none => pure q
    | some c => q.fromCursor c
  let f ← place.fetch { limit := some (perPage + 1) }
  let names := q.orders.map Prod.fst
  let cut ← CursorPage.cut f.rows perPage cursor names q.read
  let columns ← names.mapM q.columnOf
  let visited := (if cut.next.isSome then cut.items.getLast?.toList else []) ++
    if cut.previous.isSome then cut.items.head?.toList else []
  let store := q.entity.fillAll columns visited f.store
  return { items := q.answer { f with store := store } cut.items, perPage := .int perPage
           cursor := CursorPage.ofCursor? cursor, next := CursorPage.ofCursor? cut.next
           previous := CursorPage.ofCursor? cut.previous, links := { name := name } }

/-! ## Running scripts -/

/-- Is the answer to a question nothing? -/
def peek (q : Query) : Question → Except Error Bool
  | .selectedColumns => .ok q.columns.isEmpty
  | .ownName => .ok false
  | .first => do
    let f ← q.fetch { limit := some 1 }
    return f.rows.isEmpty
  | .rows => do
    let _ ← q.fetch {}
    return false
  | .count => do
    let _ ← q.count
    return false

/-- What calls do to a query. -/
def capabilities : Capabilities Query where
  ask := ask
  peek := peek

end Query

end Listing
