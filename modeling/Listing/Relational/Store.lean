import Listing.Rows

/-!
# Stores of objects

A query on a mapped entity answers objects. A `Store` holds every object once, under its key, with
the attributes that have been loaded so far. `Store.graph` is what can be seen of it from some
objects: those that can be reached by following attributes.
-/

namespace Listing

/-- The loaded attributes of an object. -/
abbrev Attributes := List (String × Attribute)

/-- Objects by their keys. -/
abbrev Store := List (String × Attributes)

/-- The objects that an attribute refers to. -/
def Attribute.keys : Attribute → List String
  | .value _ => []
  | .one key => [key]
  | .many keys => keys

namespace Store

/-- Is there an object with a key? -/
def contains (s : Store) (key : String) : Bool := (s.lookup key).isSome

/-- Is an attribute of an object loaded? -/
def isLoaded (s : Store) (key name : String) : Bool :=
  ((s.lookup key).bind fun attributes => attributes.lookup name).isSome

/-- Change the attributes of the object with a key, which is a new one if there is none. -/
def update (s : Store) (key : String) (change : Attributes → Attributes) : Store :=
  match s with
  | [] => [(key, change [])]
  | (k, attributes) :: rest =>
    if k = key then (k, change attributes) :: rest else (k, attributes) :: update rest key change

/-- Load attributes of an object, except those that are loaded already. -/
def fill (s : Store) (key : String) (attributes : Attributes) : Store :=
  s.update key fun old => old ++ attributes.filter fun a => (old.lookup a.1).isNone

/-- Set an attribute of an object. -/
def set (s : Store) (key name : String) (a : Attribute) : Store :=
  s.update key fun old => old.filter (fun b => b.1 != name) ++ [(name, a)]

/-- The objects that the attributes of an object refer to. -/
def neighbours (s : Store) (key : String) : List String :=
  ((s.lookup key).getD []).flatMap fun a => a.2.keys

/-- The keys of all objects that can be reached in a number of steps. -/
def reachable (s : Store) : Nat → List String → List String
  | 0, keys => keys
  | n + 1, keys =>
    let found := (keys.flatMap s.neighbours).eraseDups.filter fun k => !keys.contains k
    if found.isEmpty then keys else reachable s n (keys ++ found)

/-- What can be seen from the objects that are the rows of an answer. -/
def graph (s : Store) (rows : List String) : Graph :=
  let keys := s.reachable s.length rows.eraseDups
  let objects := s.filter fun o => keys.contains o.1
  ⟨rows, objects.mergeSort fun a b => !decide (b.1 < a.1)⟩

end Store

end Listing
