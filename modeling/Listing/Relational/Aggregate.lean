import Listing.Relational.Criterion
import Listing.Text.Identifier

/-!
# Aggregates over related rows

An `Aggregate` counts the related rows of a row, or adds up, averages or picks a value of one of
their columns. Null does not take part. The count of nothing is zero, and any other aggregate of
nothing is null. `Aggregate.value` computes it for a row; a sum has the kind of its column, an
average is a binary number.
-/

namespace Listing

/-- What is computed from the values of a column. -/
inductive AggregateFunction
  | count
  | sum
  | average
  | least
  | greatest
  deriving DecidableEq

/-- The function with a name. -/
def AggregateFunction.named? (name : String) : Option AggregateFunction :=
  match name with
  | "count" => some .count
  | "sum" => some .sum
  | "avg" => some .average
  | "min" => some .least
  | "max" => some .greatest
  | _ => none

/-- An aggregate over related rows. -/
structure Aggregate where
  /-- The attribute that holds the result. -/
  label : String
  function : AggregateFunction
  relation : Relation
  /-- The column that the values are taken from; none stands for whole rows. -/
  column : Option Column
  /-- Which of the related rows count. -/
  criterion : Criterion

namespace Aggregate

/-- Only the count of whole rows has a meaning. -/
def meaningless (a : Aggregate) : Bool := a.column.isNone && a.function != .count

/-- The rows that an aggregate runs over. A relation of an entity with itself leads to the rows that
are related to themselves, whatever the row. -/
def rows (db : Content) (e : Entity) (a : Aggregate) (row : TableRow) : List TableRow :=
  let related :=
    if a.relation.table = e.table then
      (db.rowsOf e.table).filter fun r => a.relation.link.joins db r r
    else a.relation.rows db row
  related.filter fun r => a.criterion.holds db r

/-! ## Sums -/

/-- The number that a text begins with. -/
def leadingNumber (s : String) : Number :=
  ((List.range (s.toList.length + 1)).reverse.findSome? fun n =>
    Parameter.number? (String.ofList (s.toList.take n))).getD (.exact (.ofInt 0))

/-- The number that a cell counts as in a sum. -/
def addend : Cell → Number
  | .number x => x
  | .text s => leadingNumber s
  | _ => .exact (.ofInt 0)

/-- Does a cell count as an integer in a sum? -/
def isInteger : Cell → Bool
  | .number (.exact x) => x.exponent == 0
  | .text s =>
    match Parameter.number? s with
    | some (.exact _) => true
    | _ => false
  | _ => false

/-- The sum of two numbers `± coefficient · 10 ^ exponent`. -/
def plus (x y : Exact) : Exact :=
  let e := min x.exponent y.exponent
  let scaled := fun z : Exact =>
    (if z.negative then -1 else 1 : Int) * (z.coefficient * Nat.pow 10 (z.exponent - e).toNat : Nat)
  let n := scaled x + scaled y
  ⟨n < 0, n.natAbs, e⟩

/-- The exact sum of numbers; infinities do not take part. -/
def total (xs : List Number) : Exact :=
  xs.foldl (fun t x =>
    match x with
    | .exact y => plus t y
    | _ => t) ⟨false, 0, 0⟩

/-- A sum as a binary number. -/
def rounded (x : Exact) : Binary64 := .ofScaled x.negative x.coefficient x.exponent

/-- A binary number divided by a positive integer. -/
def divided (x : Binary64) (n : Nat) : Binary64 :=
  match x with
  | .finite negative m e =>
    if 0 ≤ e then .ofRatio negative (m * Nat.pow 2 e.toNat) n
    else .ofRatio negative m (n * Nat.pow 2 (-e).toNat)
  | x => x

/-- A number with two decimals. -/
def withCents (x : Exact) : Decimal :=
  let e := x.exponent + 2
  let c := if 0 ≤ e then x.coefficient * Nat.pow 10 e.toNat
    else Binary64.roundHalfEven x.coefficient (Nat.pow 10 (-e).toNat)
  .finite x.negative c (-2)

/-- A sum as a value of the column's kind. A sum of dates is none. -/
def sumAs (t : ColumnType) (integers : Bool) (x : Exact) : Except Error Value :=
  let plain : Value := if integers then .int x.truncate else .binary (rounded x)
  match t with
  | .boolean => .ok (.bool (x.coefficient != 0))
  | .decimal => .ok (.decimal (withCents (if integers then x else
      match rounded x with
      | .finite negative m e => Exact.ofBinary negative m e
      | _ => x)))
  | .date | .moment _ => .error .wrongKind
  | .binary | .integer | .text | .untyped => .ok plain

/-- The value with the greatest cell, the first one of equals. -/
def pick (wanted : Ordering) (v : Value) : List Value → Value
  | [] => v
  | w :: ws =>
    if (Cell.ofValue w).compare (.ofValue v) == wanted then pick wanted w ws else pick wanted v ws

/-- The aggregate of a row of an entity. -/
def value (db : Content) (e : Entity) (a : Aggregate) (row : TableRow) : Except Error Value :=
  let rows := a.rows db e row
  match a.column with
  | none => .ok (.int rows.length)
  | some column =>
    let vs := (rows.map (·.get column.name)).filter fun v => match v with
      | .null => false
      | _ => true
    let cells := vs.map Cell.ofValue
    let sum := total (cells.map addend)
    match a.function, vs with
    | .count, vs => .ok (.int vs.length)
    | _, [] => .ok .null
    | .sum, _ => sumAs column.type (cells.all isInteger) sum
    | .average, vs => .ok (.binary (divided (rounded sum) vs.length))
    | .least, v :: vs => .ok (pick .lt v vs)
    | .greatest, v :: vs => .ok (pick .gt v vs)

end Aggregate

end Listing
