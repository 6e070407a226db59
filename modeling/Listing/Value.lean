import Listing.Number.Decimal
import Listing.Calendar.Moment

/-!
# Values

`Value` is what requests, declarations, configurations and rows are made of: plain scalars, numbers
of four kinds, moments and dates, and nested collections. A map keeps its entries in the order in
which their keys came first. A `record` is a row that is an object with named attributes, a `choice`
is a member of an enumeration, which stands for its value, and a `cursor` is a place in an ordered
listing. An `object` is anything else, of which only the kind is known.

What an application writes down whole, such as a field or the settings of a component, is
`finished`: it has a form and the parts of that form. A `function` is code of an application that
adjusts a source, written down as the calls that it makes.
-/

namespace Listing

/-- The forms of what an application writes down whole: fields, filters, includes, sort attributes,
and the settings of components. -/
inductive Form
  | column
  | fieldCallback
  | relationAggregate
  | fieldGroup
  | exact
  | member
  | compare
  | like
  | scope
  | search
  | trashed
  | filterCallback
  | relation
  | inclusionCallback
  | sortKey
  | selectorSettings
  | filterSettings
  | sortSettings
  | pagingSettings
  deriving DecidableEq

namespace Form

/-- The names of the parts of a form, in order. -/
def partNames : Form → List String
  | .column => ["attribute"]
  | .fieldCallback | .filterCallback | .inclusionCallback => ["callback"]
  | .relationAggregate => ["relation", "attribute", "function"]
  | .fieldGroup => ["name", "fields"]
  | .exact | .member | .scope => ["target"]
  | .compare => ["target", "operator"]
  | .like => ["target", "escape", "operator"]
  | .search => ["attributes"]
  | .trashed => []
  | .relation => ["relation", "callback"]
  | .sortKey => ["name", "asc", "desc"]
  | .selectorSettings => ["fields_keyword", "include_keyword", "source_self_name"]
  | .filterSettings => ["keyword"]
  | .sortSettings => ["keyword", "enable_multisort", "separator"]
  | .pagingSettings =>
    ["keyword", "appends", "page_keyword", "cursor_keyword", "per_page_keyword", "per_page_min",
      "per_page_max", "per_page_default"]

/-- Does a form keep its parts for good, so that it can be a key? -/
def isFrozen : Form → Bool
  | .sortKey | .selectorSettings | .filterSettings | .sortSettings | .pagingSettings => true
  | _ => false

end Form

mutual

/-- A value. -/
inductive Value
  | null
  | bool (b : Bool)
  | int (n : Int)
  | binary (x : Binary64)
  | decimal (d : Decimal)
  | text (s : String)
  | bytes (octets : List UInt8)
  | moment (m : Moment)
  | date (d : Date)
  | list (items : List Value)
  | tuple (items : List Value)
  | set (items : List Value)
  | map (entries : List (Value × Value))
  | record (attributes : List (String × Value))
  | choice (value : Value)
  | request (path query : String)
  | cursor (parameters : List (Value × Value)) (forward : Bool)
  | finished (form : Form) (parts : List Value)
  | function (calls : List (String × List Slot)) (returnsNothing : Bool)
  | object (kind : String)

/-- An argument of a call that a function makes. -/
inductive Slot
  | fixed (v : Value)
  /-- The name that the function is called with. -/
  | theName
  /-- The value that the function is called with. -/
  | theValue
  | list (items : List Slot)

end

/-- The entries of a map. -/
abbrev Entries := List (Value × Value)

instance : Inhabited Value := ⟨.null⟩

end Listing
