/-!
# Slices and positions of lists

Positions count from zero; negative ones count from the end. A slice that reaches past an end is cut
there.
-/

namespace Listing

/-- A position as a number of items from the front, cut at both ends of a list of `length` items. -/
def bound (length : Nat) (i : Int) : Nat :=
  if i < 0 then (length + i).toNat else min i.toNat length

/-- The items from position `start` up to position `stop`. -/
def slice {α : Type} (xs : List α) (start stop : Int) : List α :=
  let first := bound xs.length start
  (xs.drop first).take (bound xs.length stop - first)

/-- The item at a position. -/
def itemAt? {α : Type} (xs : List α) (i : Int) : Option α :=
  if i < 0 then (if i + xs.length < 0 then none else xs[(xs.length + i).toNat]?) else xs[i.toNat]?

end Listing
