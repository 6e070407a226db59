import Listing.Relational.Fetch
import Listing.Source.Collection

/-!
# Sources

A `Source` is where rows come from: a collection in memory, a query on a database, or a bare source,
which has none of the capabilities. Scripts run on all of them, and all of them answer rows, counts
and pages as far as they can.
-/

namespace Listing

/-- Where rows come from. -/
inductive Source
  | bare
  | collection (c : Collection)
  | query (q : Query)

namespace Source

/-- The source of the rows of a value: a list or a tuple. -/
def ofValue : Value → Except Error Source
  | .list rows | .tuple rows => .ok (.collection { rows := rows })
  | v => .error (.specification (.unsupportedSource v.typeName))

/-- The source with other comparison operators. -/
def withOperators (s : Source) (operators : Operators) : Source :=
  match s with
  | .bare => .bare
  | .collection c => .collection { c with operators := operators }
  | .query q => .query { q with operators := operators }

/-- The comparison operators. -/
def operators : Source → Operators
  | .bare => .builtin
  | .collection c => c.operators
  | .query q => q.operators

/-! ## Scripts -/

/-- What calls do to a bare source, which has no capability. -/
def bareCapabilities : Capabilities Unit where
  ask := fun _ _ _ => .error .notSupported
  peek := fun _ question =>
    match question with
    | .ownName => .ok false
    | _ => .error .notSupported

/-- Run a script on a source. -/
def run (s : Source) (script : Script) : Except Error Source :=
  match s with
  | .bare => (script.run bareCapabilities ()).map fun _ => .bare
  | .collection c => (script.run Collection.capabilities c).map .collection
  | .query q => (script.run Query.capabilities q).map .query

/-! ## What a source is -/

/-- Does the source have relations? -/
def supportsRelations : Source → Bool
  | .query q => q.entity.mapped
  | _ => false

/-- The name of the rows in the structure of a request. -/
def selfName : Source → String
  | .query q => q.selfName
  | _ => "self"

/-- The name of the kind of source. -/
def kind : Source → String
  | .bare => "base"
  | .collection _ => "collection"
  | .query _ => "sqlalchemy"

/-- A short description. -/
def description : Source → String
  | .bare => "<BaseSource>"
  | .collection c => "<CollectionSource rows=" ++ natText c.rows.length ++ ">"
  | .query q => "<SqlAlchemySource " ++ q.entity.name ++ ">"

/-- The selected columns, none of which means all. -/
def selectedColumns : Source → Except Error (Option (List Value))
  | .bare => .error .notSupported
  | .collection c => .ok c.selectedColumns
  | .query q => .ok q.selectedColumns

/-! ## Answers -/

/-- All rows. -/
def get : Source → Except Error Rows
  | .bare => .error .notSupported
  | .collection c => c.get.map .plain
  | .query q => q.get

/-- The first row, if there is one. -/
def first : Source → Except Error Rows
  | .bare => .error .notSupported
  | .collection c => c.get.map fun rows => .plain (rows.take 1)
  | .query q => q.first

/-- The number of rows. -/
def count : Source → Except Error Nat
  | .bare => .error .notSupported
  | .collection c => c.count
  | .query q => q.count

/-! ## Pages -/

/-- A page size or a page number; what counts as nothing stands for the standard one. -/
def integerOr (standard : Int) (v : Value) : Except Error Int :=
  if v.truthy then v.toInt else .ok standard

/-- A page with the number of all rows. -/
def paginate (s : Source) (perPage columns name page : Value) : Except Error NumberedPage :=
  match s with
  | .bare => .error .notSupported
  | .collection c => do
    let size ← integerOr defaultPerPage perPage
    let number ← integerOr 1 page
    (← c.selectAll columns).paginate size number name
  | .query q => do
    let size ← integerOr defaultPerPage perPage
    let number ← integerOr 1 page
    (← q.selectAll columns).paginate size number name

/-- A page without the number of all rows. -/
def simplePaginate (s : Source) (perPage columns name page : Value) : Except Error NumberedPage :=
  match s with
  | .bare => .error .notSupported
  | .collection c => do
    let size ← integerOr defaultPerPage perPage
    let number ← integerOr 1 page
    (← c.selectAll columns).simplePaginate size number name
  | .query q => do
    let size ← integerOr defaultPerPage perPage
    let number ← integerOr 1 page
    (← q.selectAll columns).simplePaginate size number name

/-- The page at a cursor. -/
def cursorPage (s : Source) (perPage columns name cursor : Value) : Except Error CursorPage :=
  match s with
  | .bare => .error .notSupported
  | .collection c => do
    let size ← integerOr defaultPerPage perPage
    (← c.selectAll columns).cursorPage size name cursor
  | .query q => do
    let size ← integerOr defaultPerPage perPage
    (← q.selectAll columns).cursorPage size name cursor

end Source

end Listing
