import Listing.Filter
import Listing.Relational.Aggregate
import Listing.Relational.Loading
import Listing.Dialect
import Listing.SortKey
import Listing.Source.Capability

/-!
# Queries on a database

A `Query` is a source of rows of one entity, a mapped one or a bare table. Calls add criteria,
orders, selected columns, relations to load and aggregates to it; nothing is looked up before it is
fetched.

The attributes of a mapped entity are its columns and its relations: `Property`. Calls read an
attribute as it is named, and what they make of a relation depends on the call.

Refinements of a relation run on a query on the related entity. Those of `whereAny` run on a blank
query on the same entity, in which rows that are marked as deleted count.
-/

namespace Listing

/-- What an attribute is. A relation can be selected and compared like a column, but its rows cannot
be fetched so. -/
inductive Property
  | column (c : Column)
  | relation (r : Relation)

/-- The column that an attribute is. -/
def Property.column? : Property → Option Column
  | .column c => some c
  | .relation _ => none

/-- A query on the rows of an entity. -/
structure Query where
  db : Database
  entity : Entity
  operators : Operators := .builtin
  /-- Is there a database session to fetch rows with? -/
  connected : Bool := true
  /-- The columns of a row where none are selected. -/
  projection : List Column
  criteria : List Criterion := []
  /-- The columns that rows are ordered by, each ascending or descending. -/
  sorting : List (Column × Bool) := []
  /-- The selected attributes. -/
  columns : List (Value × Property) := []
  /-- The relations to load, those of each call together. -/
  loadings : List (List Loading) := []
  aggregates : List Aggregate := []
  /-- The attributes that calls order by, with their directions. -/
  orders : List (Value × Direction) := []
  trashed : Trashed := .excluded

namespace Query

/-- All rows of an entity. -/
def of (db : Database) (e : Entity) : Query := { db := db, entity := e, projection := e.columns }

/-- All rows of another entity, with the same session. -/
def fresh (q : Query) (e : Entity) : Query :=
  { of q.db e with operators := q.operators, connected := q.connected }

/-- The query that alternatives start from. -/
def blank (q : Query) : Query := { q.fresh q.entity with trashed := .included }

/-- What rows have to meet. -/
def criterion (q : Query) : Criterion :=
  .all (q.criteria ++ (q.entity.trashedCriterion q.trashed).toList)

/-- The query with one more criterion. -/
def filtered (q : Query) (c : Criterion) : Query := { q with criteria := q.criteria ++ [c] }

/-- Is a value the name of a column, or, in a bare table, its position? -/
def names (e : Entity) (name : Value) (column : Column × Nat) : Bool :=
  name.equal (.text column.1.name) || (!e.mapped && name.equal (.int column.2))

/-- The column of an attribute. -/
def columnOf (q : Query) (name : Value) : Except Error Column :=
  if !q.entity.mapped && !name.hashable then .error .wrongKind
  else
    match q.entity.columns.zipIdx.find? (names q.entity name) with
    | some c => .ok c.1
    | none => .error (.specification (.unknownAttribute name q.entity.name))

/-- What an attribute is. -/
def propertyOf (q : Query) (name : Value) : Except Error Property :=
  match if q.entity.mapped then name.text?.bind q.entity.relation? else none with
  | some r => .ok (.relation r)
  | none => (q.columnOf name).map .column

/-- The selected columns. -/
def selectedColumnList (q : Query) : List Column := q.columns.filterMap fun c => c.2.column?

/-- Is a relation selected as if it were a column? -/
def misled (q : Query) : Bool := q.columns.any fun c => c.2.column?.isNone

/-- A relation of the entity. -/
def relation (q : Query) (name : String) : Except Error Relation :=
  if !q.entity.mapped then .error (.specification (.relationsUnsupported q.entity.name))
  else
    match q.entity.relation? name with
    | some r => .ok r
    | none => .error (.specification (.unknownRelation name q.entity.name))

/-- A query on the rows that a relation leads to. -/
def related (q : Query) (r : Relation) : Except Error Query :=
  match q.db.entity? r.target with
  | some e => .ok (q.fresh e)
  | none => .error (.specification (.unknownRelation r.name q.entity.name))

/-! ## Calls without refinements -/

/-- Take a column into the selection. -/
def select (q : Query) (name : Value) : Except Error Query := do
  let property ← q.propertyOf name
  return if ← name.occursIn? (q.columns.map Prod.fst) then q
    else { q with columns := q.columns ++ [(name, property)] }

/-- Take columns into the selection. -/
def selectAll (q : Query) (columns : Value) : Except Error Query := do
  (← readColumns columns).foldlM select q

/-- Keep the rows whose attribute compares with a value. -/
def compare (q : Query) (name operator value : Value) : Except Error Query := do
  match ← q.operators.find? operator with
  | none => .error (.specification (.unsupportedCompareOperator operator))
  | some c =>
    match ← q.propertyOf name with
    | .column column =>
      return q.filtered (← Criterion.comparing q.entity.name column c (column.type.coerced value))
    | .relation r =>
      return q.filtered
        (← Criterion.comparingRelation q.entity.name r c (ColumnType.boolean.coerced value))

/-- Keep the rows whose attribute is one of the values. -/
def member (q : Query) (name values : Value) : Except Error Query := do
  let property ← q.propertyOf name
  let vs ← values.items
  match property with
  | .column column => return q.filtered (← Criterion.among column (vs.map column.type.coerced))
  | .relation _ => .error .notSupported

/-- Keep the rows whose attribute fits a pattern. -/
def like (q : Query) (name pattern operator : Value) : Except Error Query := do
  let property ← q.propertyOf name
  let adapter := Adapters.builtin.find (if q.connected then "sqlite" else "")
  let op ← adapter.operator operator
  match property, pattern with
  | .relation _, _ => .error .notSupported
  | .column _, .null | .column _, .bool _ => .error .badComparison
  | .column column, pattern =>
    return q.filtered (.like column (.ofValue column.type pattern) true op.negated)

/-- The criteria that a scope adds. -/
def scopeCriteria (q : Query) (scope : Scope) (argument : Value) : Except Error (List Criterion) :=
  match scope with
  | .endsIn name start => do
    let column ← q.columnOf (.text name)
    return [.like column (.text ("%" ++ start ++ argument.toText)) false false]
  | .positive name => do
    let column ← q.columnOf (.text name)
    return [.compare column .greater (.integer 0)]
  | .nothing => return []

/-- Apply a scope of the entity to its argument. -/
def scope (q : Query) (name : Value) (arguments : List Value) : Except Error Query := do
  match name with
  | .text s =>
    match q.entity.scopes.lookup (Text.snakeCase s), arguments with
    | some scope, [argument] =>
      return { q with criteria := q.criteria ++ (← q.scopeCriteria scope argument) }
    | some _, _ => .error .wrongKind
    | none, _ => .error (.specification (.unknownScope name q.entity.name))
  | _ => .error .wrongKind

/-- Say how rows count that are marked as deleted. -/
def mark (q : Query) (mode : Trashed) : Except Error Query :=
  if q.entity.softDelete.isSome then .ok { q with trashed := mode }
  else .error (.specification (.softDeleteUnsupported q.entity.name))

/-- Compute an aggregate over related rows. -/
def aggregate (q : Query) (relation column function : Value) : Except Error Query := do
  let function ← match function with
    | .text s => pure (Text.lower s)
    | .bytes _ => .error (.specification (.unsupportedAggregate (Text.lower function.toText)))
    | v => .error (v.operationFault "lower")
  match AggregateFunction.named? function with
  | none => .error (.specification (.unsupportedAggregate function))
  | some f =>
    if q.entity.mapped && !relation.hashable then throw .wrongKind
    let r ← q.relation (← relation.asText)
    let inner ← q.related r
    let whole := column.equal (.text "*")
    let c ← if whole then pure none else (inner.columnOf column).map some
    let label := r.name ++ "_" ++ function ++ (if whole then "" else "_" ++ column.toText)
    return { q with aggregates := q.aggregates ++
      [⟨Text.snakeCase label, f, r, c, .all (inner.entity.trashedCriterion .excluded).toList⟩] }

/-- Order by an attribute. -/
def order (q : Query) (name : Value) (direction : Direction) : Except Error Query := do
  match ← q.propertyOf name with
  | .column column =>
    return { q with sorting := q.sorting ++ [(column, direction == .descending)]
                    orders := q.orders ++ [(name, direction)] }
  | .relation _ => .error .notSupported

/-! ## Calls with refinements -/

/-- Keep the rows that one of the branches keeps. -/
def whereAny (q : Query) (branches : List (Given Query)) : Except Error Query := do
  let criteria ← branches.mapM fun branch => do return (← branch.refine q.blank).criterion
  return if criteria.isEmpty then q else q.filtered (.any criteria)

/-- The criterion that there is a row at the end of a path of relations that a refinement keeps. -/
def relatedCriterion (q : Query) (refinement : Given Query) : List String → Except Error Criterion
  | [] => .ok (.all [])
  | [name] => do
    let r ← q.relation name
    let inner ← refinement.refine (← q.related r)
    return .related r inner.criterion
  | name :: rest => do
    let r ← q.relation name
    let inner ← q.related r
    return .related r (inner.filtered (← inner.relatedCriterion refinement rest)).criterion

/-- The names of a path of relations. -/
def pathNames (path : String) : List String :=
  Text.splitOn "." path

/-- The names of a path in which a dot at the end counts for nothing. -/
def trimmedPathNames (path : String) : List String :=
  match (pathNames path).reverse with
  | "" :: name :: names => (name :: names).reverse
  | names => names.reverse

/-- Keep the rows with a related row that a refinement keeps. -/
def whereHas (q : Query) (relation : Value) (refinement : Given Query) : Except Error Query := do
  match relation with
  | .text path => return q.filtered (← q.relatedCriterion refinement (trimmedPathNames path))
  | v => .error (v.operationFault "partition")

/-- The loadings along a path of relations. The refinement is for its end only. -/
def loadingsAlong (q : Query) (refinement : Given Query) (path : List Relation) :
    List String → Except Error (List Loading)
  | [] => .ok []
  | [name] => do
    let r ← q.relation name
    let inner ← refinement.refine (← q.related r)
    if !inner.aggregates.isEmpty || !inner.orders.isEmpty then
      throw (.specification .refinementLimited)
    let here := path ++ [r]
    return ⟨here, inner.criterion, inner.selectedColumnList, inner.misled⟩ ::
      inner.loadings.flatten.map fun l => { l with path := here ++ l.path }
  | name :: rest => do
    let r ← q.relation name
    let inner ← q.related r
    return { path := path ++ [r], criterion := inner.criterion } ::
      (← inner.loadingsAlong refinement (path ++ [r]) rest)

/-- Load related rows along. -/
def load (q : Query) (relation : Value) (refinement : Given Query) : Except Error Query := do
  match relation with
  | .text path =>
    return { q with loadings := q.loadings ++ [← q.loadingsAlong refinement [] (pathNames path)] }
  | v => .error (v.operationFault "split")

/-! ## What calls do -/

/-- The value that a scope is applied to. A scope may get more than one, or none. -/
def scopeArguments (given : List (Given Query)) : Except Error (List Value) :=
  given.mapM fun g => match g with
    | .value v => .ok v
    | _ => .error .wrongKind

/-- Do what a call asks for. -/
def ask (q : Query) (capability : Capability) (given : List (Given Query)) : Except Error Query :=
  match capability, given with
  | .select, [.value column] => q.select column
  | .compare, [.value name, .value operator, .value value] => q.compare name operator value
  | .member, [.value name, .value values] => q.member name values
  | .like, [.value name, .value pattern] => q.like name pattern .null
  | .like, [.value name, .value pattern, .value operator] => q.like name pattern operator
  | .any, [branches] => do q.whereAny (← branches.items)
  | .has, [.value relation] => q.whereHas relation (.value .null)
  | .has, [.value relation, refinement] => q.whereHas relation refinement
  | .scope, .value name :: arguments => do q.scope name (← scopeArguments arguments)
  | .trashed mode, [] => q.mark mode
  | .load, [.value relation] => q.load relation (.value .null)
  | .load, [.value relation, refinement] => q.load relation refinement
  | .aggregate, [.value relation, .value column, .value function] =>
    q.aggregate relation column function
  | .order, [.value column] => q.order column .ascending
  | .order, [.value column, .value direction] => do q.order column (← Direction.ofValue direction)
  | _, _ => .error .wrongKind

/-! ## What a query is -/

/-- The selected attributes, none of which means all. -/
def selectedColumns (q : Query) : Option (List Value) :=
  if q.columns.isEmpty then none else some (q.columns.map Prod.fst)

/-- The name of the rows in the structure of a request. -/
def selfName (q : Query) : String :=
  if q.entity.mapped then Text.camelCase q.entity.name else q.entity.name

end Query

end Listing
