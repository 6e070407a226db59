import Listing.Field
import Listing.Filter
import Listing.Inclusion
import Listing.SortKey
import Listing.Value.Attribute

/-!
# Operations

A field, filter, include or sort attribute that an application writes down whole is an operation:
a form with named parts. `Operation.ofParts` puts one together and checks what its form checks, and
`Operation.applied` is the script of an operation that is applied to a source.
-/

namespace Listing

/-- Values by name. -/
abbrev NamedValues := List (String × Value)

namespace Form

/-- All forms. -/
def all : List Form :=
  [.column, .fieldCallback, .relationAggregate, .fieldGroup, .exact, .member, .compare, .like,
    .scope, .search, .trashed, .filterCallback, .relation, .inclusionCallback, .sortKey,
    .selectorSettings, .filterSettings, .sortSettings, .pagingSettings]

/-- The form with a name. -/
def named? (s : String) : Option Form := all.find? fun f => f.typeName == s

/-- The parts that need not be given, with the values that they have then. -/
def standardParts : Form → NamedValues
  | .fieldGroup => [("fields", .map [])]
  | .compare => [("operator", .text "=")]
  | .like => [("escape", .bool true), ("operator", .null)]
  | .search => [("attributes", .list [])]
  | .relation => [("callback", .null)]
  | .sortKey => [("asc", .tuple []), ("desc", .tuple [])]
  | .selectorSettings =>
    [("fields_keyword", .text "fields"), ("include_keyword", .text "include"),
      ("source_self_name", .bool false)]
  | .filterSettings => [("keyword", .text "filter")]
  | .sortSettings =>
    [("keyword", .text "sort"), ("enable_multisort", .bool false), ("separator", .text ",")]
  | .pagingSettings =>
    [("keyword", .null), ("appends", .bool true), ("page_keyword", .text "page"),
      ("cursor_keyword", .text "cursor"), ("per_page_keyword", .text "per-page"),
      ("per_page_min", .int 1), ("per_page_max", .int 100), ("per_page_default", .int 15)]
  | _ => []

/-- The part with a name, given or standard. -/
def part (f : Form) (given : NamedValues) (name : String) : Except Error Value :=
  match given.lookup name, f.standardParts.lookup name with
  | some v, _ | none, some v => .ok v
  | none, none => .error .wrongKind

/-- The parts of a form in order. A part that the form does not have cannot be given. -/
def arranged (f : Form) (given : NamedValues) : Except Error (List Value) :=
  if given.all fun p => f.partNames.contains p.1 then f.partNames.mapM (f.part given)
  else .error .wrongKind

end Form

namespace Operation

/-- The finished value of a form with named parts, where there are these comparison operators. -/
def ofParts (ops : Operators) (f : Form) (given : NamedValues) : Except Error Value := do
  match f, ← f.arranged given with
  | .compare, [target, operator] => return (← Filter.compare? ops target operator).toValue
  | .like, [target, escape, operator] => return (← Filter.like? target escape operator).toValue
  | .search, [attributes] => return (← Filter.search? (← attributes.items)).toValue
  | .sortKey, [name, ascending, descending] =>
    return (SortKey.make name ascending descending).toValue
  | f, parts => return .finished f parts

/-- The script of an operation that is applied to a source with these arguments: a filter to a name
and a value, a field or an include to a name. -/
def applied (relations : Bool) (operation : Value) (arguments : List Value) : Script :=
  match Filter.ofValue? operation, Field.ofValue? operation, Inclusion.ofValue? operation with
  | some f, _, _ =>
    match arguments with
    | [name, value] => f.script relations name value
    | _ => .fail .wrongKind
  | none, some (.group _ _), _ => .fail .noMember
  | none, some f, _ =>
    match arguments with
    | [name] => f.script name
    | _ => .fail .wrongKind
  | none, none, some i =>
    match arguments with
    | [name] => i.script name
    | _ => .fail .wrongKind
  | none, none, none => .fail (operation.operationFault "apply")

end Operation

end Listing
