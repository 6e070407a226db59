import Listing.Callback
import Listing.Registry
import Listing.Text.Case
import Listing.Text.Pattern
import Listing.Text.Split
import Listing.Value.Attribute
import Listing.Value.Order
import Listing.Value.Pairs

/-!
# Filters

A filter turns a value from a request into calls that narrow a source. A target with dots points
into a relation: where relations are there, the part after the last dot is applied to the related
rows, and otherwise the target is an attribute as it is.

Values are checked as the calls are put together. Where a value is refused the script of the filter
fails, inside a relation as well.
-/

namespace Listing

/-- The comparison operators by their names. -/
abbrev Operators := Registry Comparison

/-- The operators that are always there. -/
def Operators.builtin : Operators :=
  [("=", .equal), ("!=", .unequal), ("<>", .unequal), ("<", .less), ("<=", .atMost),
   (">", .greater), (">=", .atLeast)]

/-- The comparison that an operator stands for. A key that cannot stand in a registry is an
error. -/
def Operators.find? (ops : Operators) (operator : Value) : Except Error (Option Comparison) :=
  match operator with
  | .text name => .ok (Registry.get? ops name)
  | v => if v.hashable then .ok none else .error .wrongKind

/-- A filter. -/
inductive Filter
  /-- The attribute equals the value, or one of its members. -/
  | exact (target : Value)
  /-- The attribute is one of the members. -/
  | member (target : Value)
  | compare (target operator : Value)
  /-- The attribute holds the value, or fits it as a pattern where it is not escaped. -/
  | like (target escape operator : Value)
  | scope (target : Value)
  /-- One of the attributes holds the value. -/
  | search (attributes : List Value)
  /-- Rows that are marked as deleted count as the value says. -/
  | trashed
  | callback (function : Value)

namespace Filter

/-- The filter as a value. -/
def toValue : Filter → Value
  | .exact target => .finished Form.exact [target]
  | .member target => .finished Form.member [target]
  | .compare target operator => .finished Form.compare [target, operator]
  | .like target escape operator => .finished Form.like [target, escape, operator]
  | .scope target => .finished Form.scope [target]
  | .search attributes => .finished Form.search [.list attributes]
  | .trashed => .finished Form.trashed []
  | .callback function => .finished Form.filterCallback [function]

/-- The filter that a value is. -/
def ofValue? : Value → Option Filter
  | .finished Form.exact [target] => some (.exact target)
  | .finished Form.member [target] => some (.member target)
  | .finished Form.compare [target, operator] => some (.compare target operator)
  | .finished Form.like [target, escape, operator] => some (.like target escape operator)
  | .finished Form.scope [target] => some (.scope target)
  | .finished Form.search [.list attributes] => some (.search attributes)
  | .finished Form.trashed [] => some .trashed
  | .finished Form.filterCallback [function] => some (.callback function)
  | _ => none

theorem ofValue?_toValue (f : Filter) : ofValue? f.toValue = some f := by cases f <;> rfl

/-- The operators of patterns. -/
def likeOperators : List String := ["like", "ilike", "not like", "not ilike"]

/-- A comparison filter, if there is such an operator. -/
def compare? (ops : Operators) (target operator : Value) : Except Error Filter := do
  match ← ops.find? operator with
  | some _ => return .compare target operator
  | none => .error (.specification (.unsupportedCompareOperator operator))

/-- A pattern filter, if there is such an operator; null leaves it to the source. -/
def like? (target escape operator : Value) : Except Error Filter :=
  match operator with
  | .null => .ok (.like target escape .null)
  | .text name =>
    if likeOperators.contains (Text.lower name) then .ok (.like target escape operator)
    else .error (.specification (.unsupportedLikeOperator operator))
  | .bytes _ => .error (.specification (.unsupportedLikeOperator operator))
  | v => .error (v.operationFault "lower")

/-- A search filter, if there are attributes to search. -/
def search? (attributes : List Value) : Except Error Filter :=
  if attributes.isEmpty then .error (.specification .emptySearch) else .ok (.search attributes)

/-! ## Checking values -/

/-- A value that has to be a scalar. -/
def scalar (name value : Value) : Except Error Value :=
  if value.isScalar then .ok value else .error (.query (.scalarRequired name))

/-- Members that all have to be scalars. -/
def scalars (name : Value) (values : List Value) : Except Error (List Value) :=
  values.mapM (scalar name)

/-- The members that a value lists. A scalar lists the pieces of its text. -/
def members (name value : Value) : Except Error (List Value) :=
  if value.isScalar then .ok ((commaList value.toText).map .text)
  else
    match value with
    | .map es => .ok (Entries.values es)
    | .list vs | .tuple vs | .set vs => .ok vs
    | _ => .error (.query (.membersRequired name))

/-! ## Scripts -/

/-- The call of a filter on one attribute. -/
def callOn (filter : Filter) (target name value : Value) : Except Error Call :=
  match filter with
  | .exact _ =>
    match value with
    | .list vs | .tuple vs | .set vs => do return .member target (← scalars name vs)
    | v => do return .compare target (.text "=") (← scalar name v)
  | .member _ => do return .member target (← scalars name (← members name value))
  | .compare _ operator => do return .compare target operator (← scalar name value)
  | .like _ escape operator => do
    let v ← scalar name value
    let pattern := if escape.truthy then Text.containing v.toText else v.toText
    return .like target (.text pattern) operator
  | .scope _ => .ok (.scope target value)
  | _ => .error .noMember

/-- The script of a filter on one attribute. -/
def scriptOn (filter : Filter) (target name value : Value) : Script :=
  .ofExcept ((callOn filter target name value).map .one)

/-- The relation and the attribute that a target names, or the attribute alone. A collection is no
path, even if it holds a dot. -/
def splitTarget (relations : Bool) (target : Value) : Except Error (Option Value × Value) :=
  match target with
  | .text s =>
    match if relations then Text.cutLast '.' s else none with
    | some (relation, rest) => .ok (some (.text relation), .text rest)
    | none => .ok (none, target)
  | v =>
    match v.collection? with
    | some vs =>
      if relations && (Value.text ".").occursIn vs then .error .noMember else .ok (none, v)
    | none => .error .wrongKind

/-- The script of a filter with a target, which may point into a relation. -/
def targetScript (relations : Bool) (filter : Filter) (target name value : Value) : Script :=
  match splitTarget relations target with
  | .error e => .fail e
  | .ok (none, target) => scriptOn filter target name value
  | .ok (some relation, target) => .one (.has relation (scriptOn filter target name value))

/-- The script of a filter that is requested by `name` with a value. -/
def script (relations : Bool) (name value : Value) (filter : Filter) : Script :=
  match filter with
  | .exact target | .member target | .compare target _ | .like target _ _ | .scope target =>
    targetScript relations filter target name value
  | .search attributes =>
    match scalar name value with
    | .error e => .fail e
    | .ok v =>
      .one (.any (attributes.map fun a =>
        targetScript relations (.like a (.bool true) .null) a name v))
  | .trashed =>
    match scalar name value with
    | .error e => .fail e
    | .ok v =>
      .one (.trashed (if v.equal (.text "with") then .included
        else if v.equal (.text "only") then .only else .excluded))
  | .callback function => function.called ⟨name, value⟩

end Filter

end Listing
