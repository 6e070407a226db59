import Listing.Value.Coercion
import Listing.Value.Equality

/-!
# Schemas and contents

An `Entity` describes a table: its columns, its primary key, and, if it is mapped, its relations,
its scopes' names and the column that marks its rows as deleted. `Content` holds the rows of all
tables, those of each table in the order of its primary key. `Relation.rows` lists the rows that a
relation leads to from a row.
-/

namespace Listing

/-- A column of a table. -/
structure Column where
  name : String
  type : ColumnType
  deriving DecidableEq

/-- A row of a table: values by the names of the columns. -/
abbrev TableRow := List (String × Value)

/-- The value of a column. -/
def TableRow.get (r : TableRow) (column : String) : Value := (r.lookup column).getD .null

/-- The rows of tables, by the names of the tables. -/
abbrev Content := List (String × List TableRow)

/-- The rows of a table. -/
def Content.rowsOf (db : Content) (table : String) : List TableRow := (db.lookup table).getD []

/-- How the rows of a relation belong to a row. -/
inductive Link
  /-- A column of the row equals a column of the related rows. -/
  | columns (own theirs : String)
  /-- A table pairs a column of the row with a column of the related rows. -/
  | through (table own near far theirs : String)
  deriving DecidableEq

/-- A relation of an entity. -/
structure Relation where
  name : String
  /-- The name of the related entity. -/
  target : String
  /-- The table of the related entity. -/
  table : String
  /-- Does the relation lead to any number of rows? -/
  many : Bool
  link : Link
  /-- The columns that related rows are ordered by. -/
  order : List Column := []
  deriving DecidableEq

/-- A named criterion of an entity, which takes one argument. -/
inductive Scope
  /-- The text of a column ends in a text followed by the argument, in which `%` and `_` are
  wild. -/
  | endsIn (column start : String)
  /-- A column is greater than zero, whatever the argument. -/
  | positive (column : String)
  /-- All rows, whatever the argument. -/
  | nothing
  deriving DecidableEq

/-- A table, and the entity that is mapped to it, if there is one. -/
structure Entity where
  name : String
  table : String
  columns : List Column
  key : List String
  mapped : Bool := true
  softDelete : Option String := none
  relations : List Relation := []
  /-- The scopes by their names. -/
  scopes : List (String × Scope) := []
  deriving DecidableEq

namespace Entity

/-- The column with a name. -/
def column? (e : Entity) (name : String) : Option Column := e.columns.find? fun c => c.name == name

/-- The relation with a name. -/
def relation? (e : Entity) (name : String) : Option Relation :=
  e.relations.find? fun r => r.name == name

/-- The key of the object that a row is. -/
def keyOf (e : Entity) (row : TableRow) : String :=
  e.name ++ ":" ++ ",".intercalate (e.key.map fun name => (row.get name).toText)

end Entity

/-- Entities and the rows of their tables. -/
structure Database where
  schema : List Entity
  content : Content

/-- The entity with a name. -/
def Database.entity? (db : Database) (name : String) : Option Entity :=
  db.schema.find? fun e => e.name == name

/-- Are two values of rows the same, and not null? -/
def sameKey (a b : Value) : Bool :=
  match a with
  | .null => false
  | a => a.equal b

/-- Does a link lead from one row to another? -/
def Link.joins (db : Content) (link : Link) (row other : TableRow) : Bool :=
  match link with
  | .columns own theirs => sameKey (row.get own) (other.get theirs)
  | .through table own near far theirs =>
    (db.rowsOf table).any fun pair =>
      sameKey (row.get own) (pair.get near) && sameKey (pair.get far) (other.get theirs)

/-- The rows that a relation leads to, in the order of their primary key. -/
def Relation.rows (db : Content) (r : Relation) (row : TableRow) : List TableRow :=
  (db.rowsOf r.table).filter (r.link.joins db row)

end Listing
