import Listing.Value.Arithmetic

/-!
# The order of values

`Value.compare?` puts two values in order where their kinds have one: numbers among each other,
texts by code point, octets, moments, dates, lists and tuples by their first difference, sets by
inclusion. It answers `none` for two values that are comparable and stand in no order, such as a
number and what is not a number.

`Comparison` is an operator between two values, and `Comparison.holds?` decides it.
-/

namespace Listing

namespace Value

/-- Is one of the two numbers a decimal, and one of them no number? -/
def undefinedOrder (a b : Value) : Bool :=
  let isNan := fun v : Value => match v.number? with
    | some .nan => true
    | _ => false
  (a.isDecimal || b.isDecimal) && (isNan a || isNan b)

/-- The order of two sets, where one includes the other. -/
def compareSets (a b : List Value) : Option Ordering :=
  match subset a b, subset b a with
  | true, true => some .eq
  | true, false => some .lt
  | false, true => some .gt
  | false, false => none

/-- The order of two moments. -/
def compareMoments (a b : Moment) : Except Error (Option Ordering) :=
  if a.offset.isSome == b.offset.isSome then .ok (some (Ord.compare a.instant b.instant))
  else .error .wrongKind

/-- The order of two numbers; the values are those that the numbers come from. -/
def compareNumbers (a b : Value) : Except Error (Option Ordering) :=
  match a.number?, b.number? with
  | some x, some y => if undefinedOrder a b then .error .undefinedOrder else .ok (x.compare? y)
  | _, _ => .error .wrongKind

mutual

/-- The order of two values. -/
def compare? : Value → Value → Except Error (Option Ordering)
  | .text s, .text t => .ok (some (Ord.compare s t))
  | .bytes a, .bytes b => .ok (some (Ord.compare a b))
  | .moment a, .moment b => compareMoments a b
  | .date a, .date b => .ok (some (Ord.compare a.dayNumber b.dayNumber))
  | .list a, .list b => compareItems? a b
  | .tuple a, .tuple b => compareItems? a b
  | .set a, .set b => .ok (compareSets a b)
  | a, b => compareNumbers a b

/-- The order of two lists of values, decided where they first differ. -/
def compareItems? : List Value → List Value → Except Error (Option Ordering)
  | [], [] => .ok (some .eq)
  | [], _ :: _ => .ok (some .lt)
  | _ :: _, [] => .ok (some .gt)
  | a :: as, b :: bs => do
    if ← equal? a b then compareItems? as bs else compare? a b

end

/-- Is the first value less than the second? -/
def less? (a b : Value) : Except Error Bool := (compare? a b).map (· == some .lt)

end Value

/-- An operator that compares two values. -/
inductive Comparison
  | equal
  | unequal
  | less
  | atMost
  | greater
  | atLeast
  /-- The first number is a multiple of the second. -/
  | multipleOf
  /-- The text of the first begins with the text of the second. -/
  | startsWith
  deriving DecidableEq

namespace Comparison

/-- Does the comparison hold between two values? -/
def holds? (c : Comparison) (a b : Value) : Except Error Bool :=
  match c with
  | .equal => a.equal? b
  | .unequal => (a.equal? b).map (!·)
  | .less => (a.compare? b).map (· == some .lt)
  | .atMost => (a.compare? b).map fun o => o == some .lt || o == some .eq
  | .greater => (a.compare? b).map (· == some .gt)
  | .atLeast => (a.compare? b).map fun o => o == some .gt || o == some .eq
  | .multipleOf => a.isMultiple b
  | .startsWith => .ok (a.toText.startsWith b.toText)

end Comparison

end Listing
