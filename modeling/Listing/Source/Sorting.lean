import Listing.Source.Runs
import Listing.Value.Order

/-!
# Sorting by keys

`sortByKey?` sorts a list by the keys of its items, in either direction. Items with equal keys keep
their order. Null comes before all other keys.

Keys that all stand in an order to each other have one sorted list. Other keys, such as numbers with
one among them that is not a number, are sorted by runs, and what they end up as depends on how the
runs are merged; keys that cannot be compared at all are an error as soon as two of them meet.
-/

namespace Listing

variable {α : Type}

/-- The order of two keys. Null comes first, and what is equal is level with each other even where
its kind has no order. -/
def keyOrder? (a b : Value) : Except Error (Option Ordering) :=
  match a, b with
  | .null, .null => .ok (some .eq)
  | .null, _ => .ok (some .lt)
  | _, .null => .ok (some .gt)
  | a, b => do
    if ← a.equal? b then return some .eq else a.compare? b

/-- Is one key before another? -/
def keyLess? (a b : Value) : Except Error Bool := (keyOrder? a b).map (· == some .lt)

/-- Do two keys stand in an order? -/
def inOrder (a b : Value) : Bool :=
  match keyOrder? a b with
  | .ok (some _) => true
  | _ => false

/-- Do all keys stand in an order to each other? -/
def allInOrder : List Value → Bool
  | [] => true
  | v :: vs => inOrder v v && (vs.all fun w => inOrder v w && inOrder w v) && allInOrder vs

/-- The kinds of keys of which any two stand in an order. -/
inductive KeyKind
  | number
  | text
  | date
  deriving DecidableEq

/-- The kind of a key. What is no number has none. -/
def keyKind? : Value → Option KeyKind
  | .text _ => some .text
  | .date _ => some .date
  | v =>
    match v.number? with
    | none | some .nan => none
    | some _ => some .number

/-- Are all keys of this kind, or null? -/
def allOfKind (k : KeyKind) (keys : List Value) : Bool :=
  keys.all fun
    | .null => true
    | v => keyKind? v == some k

/-- Do all keys have one order? Keys of one kind do, and need no look at every two of them. -/
def haveOrder (keys : List Value) : Bool :=
  allOfKind .number keys || allOfKind .text keys || allOfKind .date keys || allInOrder keys

/-- May the first of two keys that stand in an order come first? -/
def keyAtMost (a b : Value) : Bool :=
  match keyOrder? a b with
  | .ok (some .gt) => false
  | _ => true

/-- Sort items with keys. -/
def sortKeyed? (items : List (Value × α)) : Except Error (List (Value × α)) :=
  if haveOrder (items.map Prod.fst) then .ok (items.mergeSort fun a b => keyAtMost a.1 b.1)
  else sortByRuns (fun a b => keyLess? a.1 b.1) items

/-- Sort a list by keys, in either direction. Items with equal keys keep their order. -/
def sortByKey? (key : α → Except Error Value) (descends : Bool) (xs : List α) :
    Except Error (List α) := do
  let keyed ← xs.mapM fun x => do return (← key x, x)
  if descends then return ((← sortKeyed? keyed.reverse).map Prod.snd).reverse
  else return (← sortKeyed? keyed).map Prod.snd

end Listing
