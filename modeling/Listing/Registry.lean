/-!
# Registries

A registry gives names to things and remembers the order in which the names came first.
-/

namespace Listing

/-- Things with names. -/
abbrev Registry (α : Type) := List (String × α)

namespace Registry

variable {α : Type}

/-- The thing with a name. -/
def get? (r : Registry α) (name : String) : Option α := r.lookup name

/-- Put a thing under a name. A name that is there keeps its place. -/
def insert (r : Registry α) (name : String) (a : α) : Registry α :=
  match r with
  | [] => [(name, a)]
  | (n, b) :: rest => if n = name then (n, a) :: rest else (n, b) :: insert rest name a

/-- The names, in order. -/
def names (r : Registry α) : List String := r.map Prod.fst

end Registry

end Listing
