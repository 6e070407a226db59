import Listing.Error
import Listing.Registry
import Listing.Text.Case
import Listing.Value.Attribute

/-!
# Dialects

Databases differ in how they match patterns. An `Adapter` knows which operator a dialect uses where
none is asked for, and how the comparison without regard to case is written. Adapters are registered
under the beginning of a dialect's name; `Adapters.find` takes the first one that fits.
-/

namespace Listing

/-- How a dialect matches patterns. -/
inductive Adapter
  | base
  | postgres
  | mssql
  | sqlite
  deriving DecidableEq

/-- A pattern operator. -/
structure LikeOperator where
  negated : Bool
  ignoresCase : Bool
  deriving DecidableEq

namespace Adapter

/-- The name of an adapter. -/
def name : Adapter → String
  | .base => "base"
  | .postgres => "postgres"
  | .mssql => "mssql"
  | .sqlite => "sqlite"

/-- The operator that is used where none is asked for. -/
def standardOperator : Adapter → String
  | .postgres => "ilike"
  | _ => "like"

/-- What an operator in small letters asks for. -/
def readOperator (s : String) : LikeOperator :=
  let negated := "not ".toList.isPrefixOf s.toList
  let rest := if negated then s.toList.drop 4 else s.toList
  ⟨negated, rest == "ilike".toList⟩

/-- The operator that is asked for; what counts as nothing asks for the standard one. -/
def operator (a : Adapter) (asked : Value) : Except Error LikeOperator :=
  if !asked.truthy then .ok (readOperator a.standardOperator)
  else
    match asked with
    | .text s => .ok (readOperator (Text.lower s))
    | v => .error (v.operationFault "lower")

/-- Does the dialect that a comparison is written for have an operator of its own that does not
regard case, and does it name the types of parameters? -/
structure Rendering where
  ignoresCaseNatively : Bool := false
  typedParameters : Bool := false

/-- The comparison of a column with a parameter. -/
def render (a : Adapter) (r : Rendering) (column : String) (op : LikeOperator) : String :=
  let inFunction := op.ignoresCase && a == .mssql
  let type := if r.typedParameters then "::VARCHAR" else ""
  let parameter := ":" ++ (if inFunction then "lower" else column) ++ "_1" ++ type
  let negation := if op.negated then "NOT " else ""
  let escape := " ESCAPE '\\'"
  if !op.ignoresCase then column ++ " " ++ negation ++ "LIKE " ++ parameter ++ escape
  else if r.ignoresCaseNatively && !inFunction then
    column ++ " " ++ negation ++ "ILIKE " ++ parameter ++ escape
  else "lower(" ++ column ++ ") " ++ negation ++ "LIKE lower(" ++ parameter ++ ")" ++ escape

end Adapter

/-- Adapters, of the kinds above or of others, by the beginnings of the names of their dialects. -/
abbrev Adapters (α : Type := Adapter) := Registry α

namespace Adapters

/-- The adapters that are always there. -/
def builtin : Adapters := [("postgresql", .postgres), ("mssql", .mssql), ("sqlite", .sqlite)]

variable {α : Type}

/-- Register an adapter for a dialect. -/
def register (as : Adapters α) (dialect : String) (a : α) : Adapters α :=
  Registry.insert as (Text.lower dialect) a

/-- Is a text the beginning of a dialect's name? -/
def fits (dialect start : String) : Bool := start.toList.isPrefixOf (Text.lower dialect).toList

/-- The adapter of a dialect: the first one that fits, or `base` if none does. -/
def findOr (base : α) (as : Adapters α) (dialect : String) : α :=
  match as.find? fun e => fits dialect e.1 with
  | some e => e.2
  | none => base

/-- The adapter of a dialect. -/
def find (as : Adapters) (dialect : String) : Adapter := findOr .base as dialect

/-- Register an adapter for the dialect that a value names. -/
def registerValue (as : Adapters α) (dialect : Value) (a : α) : Except Error (Adapters α) := do
  return as.register (← dialect.textFor "lower") a

/-- The adapter of the dialect that a value names; what counts as nothing names none. -/
def findValue (as : Adapters) (dialect : Value) : Except Error Adapter := do
  return as.find (← if dialect.truthy then dialect.textFor "lower" else pure "")

end Adapters

end Listing
