import Listing.Relational.Criterion
import Listing.Relational.Store

/-!
# Loading related rows

A `Loading` says that the relation at the end of a path of relations is loaded along, which of the
related rows are, and which of their columns. Where several loadings end at one relation, the last
one says which rows, and all of them together which columns.

`Database.load` loads relations of objects into a store, and the relations beyond them. A relation
is asked for once for all objects at a place, and not at all if there is none; an object that was
loaded before keeps the attributes that it has.
-/

namespace Listing

/-- A relation that is loaded along. -/
structure Loading where
  /-- The relations from the entity to the related rows. -/
  path : List Relation
  /-- Which related rows are loaded. -/
  criterion : Criterion
  /-- The columns that are loaded; none of them means all. -/
  columns : List Column := []
  /-- Is a relation among what is to be loaded as columns? -/
  misled : Bool := false

namespace Loading

/-- The loadings that end at a relation. -/
def endingAt (r : Relation) (ls : List Loading) : List Loading :=
  ls.filter fun l => l.path.map (·.name) == [r.name]

/-- The loadings that lead beyond a relation, as they are seen from its far side. -/
def beyond (r : Relation) (ls : List Loading) : List Loading :=
  ls.filterMap fun l =>
    match l.path with
    | s :: t :: rest => if s.name = r.name then some { l with path := t :: rest } else none
    | _ => none

/-- The length of the longest path. -/
def depth (ls : List Loading) : Nat := ls.foldl (fun n l => max n l.path.length) 0

end Loading

/-- The attributes of a row under columns. The primary key is always among them; none of the columns
means all. -/
def Entity.attributes (e : Entity) (columns : List Column) (row : TableRow) : Attributes :=
  let wanted := if columns.isEmpty then e.columns
    else e.columns.filter fun c => e.key.contains c.name || columns.any fun d => d.name == c.name
  wanted.map fun c => (c.name, .value (row.get c.name))

/-- Load columns of the objects that rows are into a store. -/
def Entity.fillAll (e : Entity) (columns : List Column) (rows : List TableRow) (store : Store) :
    Store :=
  rows.foldl (fun s row => s.fill (e.keyOf row) (e.attributes columns row)) store

/-- An object whose relations are loaded. -/
structure Parent where
  row : TableRow
  /-- Has the object first been seen by the query that loads its relations? -/
  fresh : Bool

namespace Database

/-- Is a relation of an object still to be loaded? -/
def awaits (e : Entity) (r : Relation) (store : Store) (p : Parent) : Bool :=
  p.fresh || !store.isLoaded (e.keyOf p.row) r.name

/-- The parents for which related rows are asked for. A relation that leads to one row is asked for
by the columns of the parents that point to it. -/
def asking (e : Entity) (r : Relation) (store : Store) (parents : List Parent) : List Parent :=
  if r.many then parents.filter (awaits e r store)
  else
    match r.link with
    | .columns own _ => parents.filter fun p => !(p.row.get own).equal .null
    | .through _ _ _ _ _ => parents.filter (awaits e r store)

/-- The related rows of a row that meet a criterion, in the order of the relation. -/
def relatedRows (db : Database) (r : Relation) (criterion : Criterion) (row : TableRow) :
    List TableRow :=
  TableRow.sortBy (r.order.map fun c => (c, false))
    ((r.rows db.content row).filter fun other => criterion.holds db.content other)

/-- The attribute that refers to related rows. -/
def reference (target : Entity) (r : Relation) (rows : List TableRow) : Attribute :=
  if r.many then .many (rows.map target.keyOf)
  else
    match rows with
    | row :: _ => .one (target.keyOf row)
    | [] => .value .null

/-- Load relations of objects of an entity into a store, and the relations beyond them up to a
depth. -/
def loadTo (db : Database) : Nat → List Loading → Entity → List Parent → Store → Except Error Store
  | 0, _, _, _, store => .ok store
  | depth + 1, ls, e, parents, store =>
    e.relations.foldlM (fun store r =>
      match (Loading.endingAt r ls).getLast?, db.entity? r.target with
      | some last, some target => do
        let criterion := last.criterion
        let ending := Loading.endingAt r ls
        let columns := ending.flatMap (·.columns)
        let askers := asking e r store parents
        let waiting := parents.filter (awaits e r store)
        if !askers.isEmpty then
          if ending.any (·.misled) then throw .badSelection
          if let some fault := criterion.fault? [] false then throw fault
        let joined := (db.content.rowsOf target.table).filter fun other =>
          askers.any fun p => r.link.joins db.content p.row other
        let rows ← criterion.select db.content joined
        let children := rows.map fun row => Parent.mk row (!store.contains (target.keyOf row))
        let store := target.fillAll columns rows store
        let store ← loadTo db depth (Loading.beyond r ls) target children store
        return waiting.foldl (fun s p => s.set (e.keyOf p.row) r.name
          (reference target r (db.relatedRows r criterion p.row))) store
      | _, _ => return store) store

/-- Load relations of objects of an entity into a store. -/
def load (db : Database) (ls : List Loading) (e : Entity) (parents : List Parent) (store : Store) :
    Except Error Store := db.loadTo (Loading.depth ls) ls e parents store

end Database

end Listing
