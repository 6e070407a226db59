import Listing.Value.Kind

/-!
# Calls on a source

A request asks a source for capabilities one after the other. A `Call` names a capability and its
arguments, which need not fit; code that refines related rows or offers alternatives is an argument
too, as the `Script` that it runs. In between a source can be asked a `Question` about itself.
A script is a sequence of calls, and it may end in a failure instead of a source.

What a script means is up to the source that runs it. `Script.recorded` is what a recorder notes of
it: each call as a list of the name and the arguments, up to the first failure.
-/

namespace Listing

/-- How rows that are marked as deleted count. -/
inductive Trashed
  | excluded
  | included
  | only
  deriving DecidableEq

/-- What a source can be asked for. -/
inductive Capability
  /-- Take a column into the selection. -/
  | select
  /-- Keep the rows whose attribute compares with a value. -/
  | compare
  /-- Keep the rows whose attribute is one of the values. -/
  | member
  /-- Keep the rows whose attribute fits a pattern; the operator may be left to the source. -/
  | like
  /-- Keep the rows that one of the branches keeps. -/
  | any
  /-- Keep the rows with a related row that the refinement keeps. -/
  | has
  /-- Apply a scope of the entity. -/
  | scope
  /-- Say how rows count that are marked as deleted. -/
  | trashed (mode : Trashed)
  /-- Load related rows along. -/
  | load
  /-- Compute an aggregate over related rows. -/
  | aggregate
  /-- Order by an attribute. -/
  | order
  deriving DecidableEq

namespace Capability

/-- All capabilities. -/
def all : List Capability :=
  [.select, .compare, .member, .like, .any, .has, .scope, .trashed .included, .trashed .only,
    .trashed .excluded, .load, .aggregate, .order]

/-- The name of a capability. -/
def name : Capability → String
  | .select => "add_select"
  | .compare => "where"
  | .member => "where_in"
  | .like => "where_like"
  | .any => "where_any"
  | .has => "where_has"
  | .scope => "call_scope"
  | .trashed .included => "with_trashed"
  | .trashed .only => "only_trashed"
  | .trashed .excluded => "without_trashed"
  | .load => "with_relation"
  | .aggregate => "with_aggregate"
  | .order => "order_by"

/-- The capability with a name. -/
def named? (s : String) : Option Capability := all.find? fun c => c.name == s

/-- Does the capability take this number of arguments? -/
def accepts (c : Capability) (n : Nat) : Bool :=
  match c with
  | .select | .any => n == 1
  | .compare | .aggregate => n == 3
  | .member => n == 2
  | .like => n == 2 || n == 3
  | .has | .load | .order => n == 1 || n == 2
  | .scope => 1 ≤ n
  | .trashed _ => n == 0

end Capability

/-- What a source can be asked about itself in between; it answers with something that is no
source, or with nothing. -/
inductive Question
  | selectedColumns
  | ownName
  | first
  | rows
  | count
  deriving DecidableEq

namespace Question

/-- The question with a name. -/
def named? (s : String) : Option Question :=
  match s with
  | "selected_columns" => some .selectedColumns
  | "self_name" => some .ownName
  | "first" => some .first
  | "get" => some .rows
  | "count" => some .count
  | _ => none

/-- Does a recorder answer the question? It holds no rows. -/
def isRecorded : Question → Bool
  | .selectedColumns | .ownName => true
  | .first | .rows | .count => false

end Question

mutual

/-- A call. -/
inductive Call
  | ask (capability : Capability) (arguments : List Argument)
  /-- Ask a question and go on with the source. An answer that is heeded has to be nothing, because
  anything else takes the place of the source. -/
  | peek (question : Question) (heeded : Bool)
  /-- Make calls and go on with the source as it was before them. -/
  | aside (calls : List Call)

/-- An argument of a call. -/
inductive Argument
  | value (v : Value)
  | script (s : Script)
  | several (items : List Argument)

/-- Calls one after the other, and possibly a failure after the last one. -/
inductive Script
  | mk (calls : List Call) (failure : Option Error)

end

namespace Call

/-- Take a column into the selection. -/
def select (column : Value) : Call := .ask .select [.value column]

/-- Keep the rows whose attribute compares with a value. -/
def compare (name operator value : Value) : Call :=
  .ask .compare [.value name, .value operator, .value value]

/-- Keep the rows whose attribute is one of the values. -/
def member (name : Value) (values : List Value) : Call :=
  .ask .member [.value name, .value (.list values)]

/-- Keep the rows whose attribute fits a pattern. -/
def like (name pattern operator : Value) : Call :=
  .ask .like [.value name, .value pattern, .value operator]

/-- Keep the rows that one of the branches keeps. -/
def any (branches : List Script) : Call := .ask .any [.several (branches.map .script)]

/-- Keep the rows with a related row that the refinement keeps. -/
def has (relation : Value) (refinement : Script) : Call :=
  .ask .has [.value relation, .script refinement]

/-- Apply a scope of the entity. -/
def scope (name argument : Value) : Call := .ask .scope [.value name, .value argument]

/-- Say how rows count that are marked as deleted. -/
def trashed (mode : Trashed) : Call := .ask (.trashed mode) []

/-- Load related rows along. -/
def load (relation : Value) (refinement : Argument) : Call :=
  .ask .load [.value relation, refinement]

/-- Compute an aggregate over related rows. -/
def aggregate (relation column function : Value) : Call :=
  .ask .aggregate [.value relation, .value column, .value function]

/-- Order by an attribute. -/
def order (column direction : Value) : Call := .ask .order [.value column, .value direction]

end Call

namespace Script

/-- The calls of a script. -/
def calls : Script → List Call
  | .mk cs _ => cs

/-- The failure at the end of a script. -/
def failure : Script → Option Error
  | .mk _ f => f

/-- The script without calls. -/
def done : Script := .mk [] none

/-- The script that fails at once. -/
def fail (e : Error) : Script := .mk [] (some e)

/-- The script of one call. -/
def one (c : Call) : Script := .mk [c] none

/-- One script after the other; a failure of the first one is the end. -/
def andThen (s t : Script) : Script :=
  match s.failure with
  | some _ => s
  | none => .mk (s.calls ++ t.calls) t.failure

/-- Scripts one after the other. -/
def sequence : List Script → Script
  | [] => done
  | s :: ss => s.andThen (sequence ss)

/-- The script that may fail to be put together. -/
def ofExcept : Except Error Script → Script
  | .ok s => s
  | .error e => fail e

/-- The script after which the source is what it was before. -/
def quiet (s : Script) : Script := .mk [.aside s.calls] s.failure

end Script

/-! ## Recording -/

mutual

/-- What a recorder notes of a call, and the failure that ends it. A call whose refinement fails is
not noted. -/
def Call.recorded : Call → List Value × Option Error
  | .ask c arguments =>
    match argumentsRecorded c arguments with
    | .ok vs => ([.list (.text c.name :: vs)], none)
    | .error e => ([], some e)
  | .peek question _ => ([], if question.isRecorded then none else some .noMember)
  | .aside cs => callsRecorded cs

/-- What a recorder notes of calls one after the other. -/
def callsRecorded : List Call → List Value × Option Error
  | [] => ([], none)
  | c :: cs =>
    match c.recorded with
    | (made, some e) => (made, some e)
    | (made, none) => let (rest, e) := callsRecorded cs; (made ++ rest, e)

/-- What a recorder notes of a script, and the failure that ends it. -/
def Script.recorded : Script → List Value × Option Error
  | .mk cs failure =>
    match callsRecorded cs with
    | (made, some e) => (made, some e)
    | (made, none) => (made, failure)

/-- What a recorder notes of the arguments of a call. It runs code at once and lists members. -/
def argumentsRecorded : Capability → List Argument → Except Error (List Value)
  | .any, [branches] => do return [← branches.branchesRecorded]
  | .any, _ => .error .wrongKind
  | .has, [relation] => .ok [relation.shown, .null]
  | .load, [relation] => .ok [relation.shown, .null]
  | .has, [relation, refinement] => do return [relation.shown, ← refinement.refinementRecorded]
  | .load, [relation, refinement] => do return [relation.shown, ← refinement.refinementRecorded]
  | .has, _ => .error .wrongKind
  | .load, _ => .error .wrongKind
  | .member, [name, values] => do return [name.shown, .list (← values.shown.items)]
  | .member, _ => .error .wrongKind
  | _, arguments => .ok (allShown arguments)

/-- An argument as it is noted where code is not run. -/
def Argument.shown : Argument → Value
  | .value v => v
  | .script _ => .object "function"
  | .several items => .list (allShown items)

/-- Arguments as they are noted where code is not run. -/
def allShown : List Argument → List Value
  | [] => []
  | a :: as => a.shown :: allShown as

/-- What a recorder notes of a refinement, which has to be code, or null. -/
def Argument.refinementRecorded : Argument → Except Error Value
  | .value .null => .ok .null
  | .script s =>
    match s.recorded with
    | (made, none) => .ok (.list made)
    | (_, some e) => .error e
  | _ => .error .wrongKind

/-- What a recorder notes of branches. -/
def Argument.branchesRecorded : Argument → Except Error Value
  | .several items => do return .list (← refinementsRecorded items)
  | _ => .error .wrongKind

/-- What a recorder notes of refinements. -/
def refinementsRecorded : List Argument → Except Error (List Value)
  | [] => .ok []
  | a :: as => do
    let first ← a.refinementRecorded
    return first :: (← refinementsRecorded as)

end

end Listing
