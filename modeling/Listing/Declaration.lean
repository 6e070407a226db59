import Listing.Field
import Listing.Filter
import Listing.Inclusion
import Listing.SortKey

/-!
# Declarations

An application declares its fields, filters, includes and sort attributes loosely: by names, by maps
from names to targets, by lists that mix both, with finished operations, functions and groups among
them. `Declaration.fields`, `filters`, `inclusions` and `sortKeys` read such a value as a registry
of operations. Each entry is read by the first rule that fits: a finished operation stays as it is,
a function becomes the operation that runs it, a text in a list is the operation of its own name, a
text under a name is the operation of that text, and a collection under a name is a group.

What a group is depends on the kind: fields of a relation, attributes to search, includes with
dotted names, or columns to order by.
-/

namespace Listing

/-- A key and the kind of its entry, for messages. -/
def Value.described (key entry : Value) : Except Error String :=
  if key.hasText then .ok (key.typeName ++ "(" ++ key.spelled ++ ") => " ++ entry.typeName)
  else .error .badValue

/-- How the entries of one kind of declaration are read. The type `γ` holds what an entry takes over
from the groups around it. -/
structure DeclarationKind (γ α : Type) where
  /-- The word for the kind in messages. -/
  word : String
  /-- The operation that an entry already is. -/
  finished? : Value → Option α
  /-- The operation that runs a function, if there is one. -/
  ofFunction : Option (Value → α)
  /-- The operation on a target that is given by name. -/
  ofText : γ → String → α
  /-- Put an operation under a name. -/
  put : Registry α → String → α → Registry α
  /-- Put a group under a name. The last argument is the registry of the group itself. -/
  putGroup : Registry α → String → Value → Except Error (Registry α) → Except Error (Registry α)
  /-- What the entries of a group take over. -/
  inside : γ → Value → γ

namespace DeclarationKind

variable {γ α : Type}

/-- The error that names an operation without a name. -/
def unnamed (k : DeclarationKind γ α) (entry : Value) : Except Error (Registry α) :=
  if entry.hasText then .error (.specification (.unnamedOperation k.word entry.spelled))
  else .error .badValue

/-- The error that describes an entry. -/
def refuse (fault : String → String → SpecificationFault) (k : DeclarationKind γ α)
    (key entry : Value) : Except Error (Registry α) := do
  .error (.specification (fault k.word (← Value.described key entry)))

/-- Put one entry into a registry. -/
def add (k : DeclarationKind γ α) (above : γ) (r : Registry α) (key entry : Value)
    (group : Except Error (Registry α)) : Except Error (Registry α) :=
  match k.finished? entry, key.text? with
  | some a, some name => .ok (k.put r name a)
  | some _, none => k.unnamed entry
  | none, name? =>
    match entry, k.ofFunction with
    | .function _ _, some wrap =>
      match name? with
      | some name => .ok (k.put r name (wrap entry))
      | none => refuse .unnamedCallback k key entry
    | .text s, _ =>
      match name? with
      | some name => .ok (k.put r name (k.ofText above s))
      | none =>
        if key.isPosition then .ok (k.put r s (k.ofText above s))
        else refuse .unsupportedEntry k key entry
    | entry, _ =>
      match entry.collection?, name? with
      | some _, some name => k.putGroup r name entry group
      | some _, none => refuse .unnamedGroup k key entry
      | none, _ => refuse .unsupportedEntry k key entry

mutual

/-- The registry of a declaration. -/
def registry (k : DeclarationKind γ α) (above : γ) : Value → Except Error (Registry α)
  | .map es => addEntries k above [] es
  | .list vs => addItems k above [] 0 vs
  | .tuple vs => addItems k above [] 0 vs
  | .set vs => addItems k above [] 0 vs
  | v => .error (.specification (.notADeclaration v.typeName))

/-- Put the entries of a map into a registry. -/
def addEntries (k : DeclarationKind γ α) (above : γ) (r : Registry α) :
    List (Value × Value) → Except Error (Registry α)
  | [] => .ok r
  | (key, v) :: es => do
    let r ← k.add above r key v (registry k (k.inside above key) v)
    addEntries k above r es

/-- Put the items of a list into a registry, positions counting from `i`. -/
def addItems (k : DeclarationKind γ α) (above : γ) (r : Registry α) (i : Nat) :
    List Value → Except Error (Registry α)
  | [] => .ok r
  | .map es :: vs => do
    let r ← addEntries k above r es
    addItems k above r i vs
  | v :: vs => do
    let r ← k.add above r (.int i) v (registry k (k.inside above (.int i)) v)
    addItems k above r (i + 1) vs

end

end DeclarationKind

/-- Things with names as a map. -/
def Registry.toMap {α : Type} (toValue : α → Value) (r : Registry α) : Value :=
  .map (r.map fun e => (.text e.1, toValue e.2))

namespace Declaration

/-- The keys and entries of a declaration. -/
def pairs (v : Value) : Except Error (List (Value × Value)) :=
  match v.pairs? with
  | some ps => .ok ps
  | none => .error (.specification (.notADeclaration v.typeName))

/-! ## Fields -/

/-- How fields are declared. -/
def fieldKind : DeclarationKind Unit Field where
  word := "field"
  finished? := Field.ofValue?
  ofFunction := some .callback
  ofText := fun _ s => .column (.text s)
  put := Registry.insert
  putGroup := fun r name _ group => do
    return r.insert name (.group (.text name) ((← group).toMap Field.toValue))
  inside := fun _ _ => ()

/-- The fields of a declaration. -/
def fields (v : Value) : Except Error (Registry Field) := fieldKind.registry () v

/-! ## Filters -/

/-- How filters are declared. -/
def filterKind : DeclarationKind Unit Filter where
  word := "filter"
  finished? := Filter.ofValue?
  ofFunction := some .callback
  ofText := fun _ s => .exact (.text s)
  put := Registry.insert
  putGroup := fun r name v _ => do return r.insert name (← Filter.search? (← v.items))
  inside := fun _ _ => ()

/-- The filters of a declaration. -/
def filters (v : Value) : Except Error (Registry Filter) := filterKind.registry () v

/-! ## Includes -/

/-- A name under the name of a group, or by itself where that is empty. -/
def qualified (above name : String) : String :=
  if above.toList.isEmpty then name else above ++ "." ++ name

/-- How includes are declared. Entries take over the dotted name of the groups around them. -/
def inclusionKind : DeclarationKind String Inclusion where
  word := "include"
  finished? := Inclusion.ofValue?
  ofFunction := some .callback
  ofText := fun above s => .relation (.text (qualified above s)) .null
  put := Registry.insert
  putGroup := fun r name _ group => do
    return (← group).foldl (fun r e => r.insert (name ++ "." ++ e.1) e.2) r
  inside := fun above key => match key with
    | .text name => qualified above name
    | _ => above

/-- The includes of a declaration. -/
def inclusions (v : Value) : Except Error (Registry Inclusion) := inclusionKind.registry "" v

/-! ## Sort attributes -/

/-- The directions of an order. -/
def directions : List String := ["asc", "desc"]

/-- The orders that a map from columns to directions lists. -/
def ordersOfEntries : Entries → Except Error Orders
  | [] => .ok []
  | (column, v) :: es => do
    if !v.hasText then throw .badValue
    let direction := Text.lower v.toText
    if directions.contains direction then
      return (column, .text direction) :: (← ordersOfEntries es)
    else if column.hasText then
      .error (.specification (.unsupportedDirection direction column))
    else .error .badValue

/-- The orders of columns that are given by their texts, in one direction. -/
def ordersOfItems (direction : Value) (columns : List Value) : Except Error Orders :=
  if Value.allHaveText columns then
    .ok (columns.map fun column => (.text column.toText, direction))
  else .error .badValue

/-- The orders that a declaration lists: one column or several in one direction, or a map from
columns to directions. -/
def orders (direction : Value) : Value → Except Error Orders
  | .text s => .ok [(.text s, direction)]
  | .map es => ordersOfEntries es
  | v =>
    match v.collection? with
    | some columns => ordersOfItems direction columns
    | none => .error (.specification (.unsupportedOrder v.typeName))

/-- Orders with their directions turned around. -/
def flipped (os : Orders) : Orders :=
  os.map fun o => (o.1, if o.2.equal SortKey.desc then SortKey.asc else SortKey.desc)

/-- The orders under a direction, none where the map is silent. -/
def ordersUnder (es : Entries) (direction : Value) : Except Error Orders :=
  match Entries.get? es direction with
  | some v => orders direction v
  | none => .ok []

/-- The sort attribute with orders for the ascending direction, which are turned around for the
other. -/
def ascendingGroup (name : String) (v : Value) : Except Error SortKey := do
  let ascending ← orders SortKey.asc v
  return .make (.text name) ascending.toValue (flipped ascending).toValue

/-- The sort attribute that a group under a name is: a map with orders for both directions, or
orders for the ascending one alone. -/
def sortGroup (name : String) (v : Value) : Except Error SortKey :=
  match v with
  | .map es =>
    if es.all fun e => e.1.equal SortKey.asc || e.1.equal SortKey.desc then do
      let ascending ← ordersUnder es SortKey.asc
      let descending ← ordersUnder es SortKey.desc
      return .make (.text name) ascending.toValue descending.toValue
    else ascendingGroup name v
  | v => ascendingGroup name v

/-- A sort attribute under a public name. -/
def named (name : String) (k : SortKey) : SortKey :=
  if k.name.equal (.text name) then k else .make (.text name) k.ascending k.descending

/-- How sort attributes are declared. -/
def sortKind : DeclarationKind Unit SortKey where
  word := "sort"
  finished? := SortKey.ofValue?
  ofFunction := none
  ofText := fun _ s => .make (.text s) .null .null
  put := fun r name k => r.insert name (named name k)
  putGroup := fun r name v _ => do return r.insert name (named name (← sortGroup name v))
  inside := fun _ _ => ()

/-- The sort attributes of a declaration. -/
def sortKeys (v : Value) : Except Error (Registry SortKey) := sortKind.registry () v

end Declaration

end Listing
