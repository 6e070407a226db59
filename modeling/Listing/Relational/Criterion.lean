import Listing.Call
import Listing.Relational.Cell
import Listing.Value.Order

/-!
# Criteria

A `Criterion` is a condition on the rows of a table. It compares a column with a parameter, it looks
for a parameter among others, it fits the text of a column to a pattern, or it asks for a related
row that meets another criterion. Null meets nothing: neither a comparison nor a pattern, negated or
not.

`Criterion.holds` says which rows meet a criterion, and `Criterion.select` picks them.
`Criterion.fault?` says why a query is refused before any row is looked at.
-/

namespace Listing

/-- A condition on rows. -/
inductive Criterion
  | constant (b : Bool)
  | compare (column : Column) (comparison : Comparison) (parameter : Parameter)
  | isNull (column : Column) (negated : Bool)
  | member (column : Column) (parameters : List Parameter)
  /-- The text of the column fits a pattern, in which the backslash may escape. -/
  | like (column : Column) (pattern : Parameter) (escapes negated : Bool)
  | all (criteria : List Criterion)
  | any (criteria : List Criterion)
  /-- A related row meets the criterion. -/
  | related (relation : Relation) (inner : Criterion)
  /-- There is no related row. -/
  | unrelated (relation : Relation)

namespace Cell

/-- The nearest integer that a database holds. -/
def bounded (n : Int) : Int := max (-Parameter.maxInteger - 1) (min n Parameter.maxInteger)

/-- The integer that a cell counts as: the whole part of a number, and the integer that a text
begins with. -/
def wholePart : Cell → Int
  | .number (.exact x) => bounded x.truncate
  | .number (.infinite negative) =>
    if negative then -Parameter.maxInteger - 1 else Parameter.maxInteger
  | .text s =>
    let (negative, cs) := Decimal.splitSign (s.toList.dropWhile Parameter.isSpace)
    let n : Int := Decimal.digitsValue (cs.takeWhile Text.isAsciiDigit)
    bounded (if negative then -n else n)
  | _ => 0

/-- Does a comparison hold between two cells? -/
def compares (c : Comparison) (a b : Cell) : Bool :=
  match a, b with
  | .null, _ => false
  | _, .null => false
  | a, b =>
    match c with
    | .equal => a.compare b == .eq
    | .unequal => a.compare b != .eq
    | .less => a.compare b == .lt
    | .atMost => a.compare b != .gt
    | .greater => a.compare b == .gt
    | .atLeast => a.compare b != .lt
    | .multipleOf => b.wholePart != 0 && a.wholePart.tmod b.wholePart == 0
    | .startsWith => false

end Cell

/-- Does a pattern end in a backslash that escapes nothing? -/
def dangling : List Char → Bool
  | [] => false
  | [c] => c == '\\'
  | c :: d :: rest => if c == '\\' then dangling rest else dangling (d :: rest)

/-- The characters of a text before the first one with code 0, where a database stops reading. -/
def readable (s : String) : List Char := s.toList.takeWhile (· != '\x00')

/-- Does a text fit a pattern, without regard to the case of the letters `A` to `Z`? A pattern that
ends in a backslash that escapes nothing fits no text. -/
def fitsPattern (pattern : String) (escapes : Bool) (s : String) : Bool :=
  let cs := readable pattern
  let ps := if escapes then Text.parts cs else cs.map Text.Part.ofChar
  !(escapes && dangling cs) &&
    Text.matchesParts (fun a b => Text.asciiLower a == Text.asciiLower b) ps (readable s)

namespace Criterion

mutual

/-- Does a row meet the criterion? -/
def holds (db : Content) (row : TableRow) : Criterion → Bool
  | .constant b => b
  | .compare column .multipleOf p => (row.cell column).compares .multipleOf p.ownCell
  | .compare column c p => (row.cell column).compares c (p.cell column.type)
  | .isNull column negated =>
    match row.get column.name with
    | .null => !negated
    | _ => negated
  | .member column ps =>
    ps.any fun p => (row.cell column).compares .equal (p.cell column.type)
  | .like column pattern escapes negated =>
    match cellText? column.type (row.get column.name), pattern.text? with
    | some s, some p => fitsPattern p escapes s != negated
    | _, _ => false
  | .all cs => allHold db row cs
  | .any cs => oneHolds db row cs
  | .related relation inner => (relation.rows db row).any fun other => holds db other inner
  | .unrelated relation => (relation.rows db row).isEmpty

/-- Does a row meet all criteria? -/
def allHold (db : Content) (row : TableRow) : List Criterion → Bool
  | [] => true
  | c :: cs => holds db row c && allHold db row cs

/-- Does a row meet one of the criteria? -/
def oneHolds (db : Content) (row : TableRow) : List Criterion → Bool
  | [] => false
  | c :: cs => holds db row c || oneHolds db row cs

end

mutual

/-- Does looking at a row come to a pattern that is too long? Criteria are looked at in order, and
no further than it takes. -/
def overruns (db : Content) (row : TableRow) : Criterion → Bool
  | .like _ pattern _ _ => pattern.isOverlong
  | .all cs => allOverrun db row cs
  | .any cs => anyOverruns db row cs
  | .related relation inner => (relation.rows db row).any fun other => overruns db other inner
  | .constant _ | .compare _ _ _ | .isNull _ _ | .member _ _ | .unrelated _ => false

/-- Does looking for a criterion that a row does not meet come to a pattern that is too long? -/
def allOverrun (db : Content) (row : TableRow) : List Criterion → Bool
  | [] => false
  | c :: cs => overruns db row c || (holds db row c && allOverrun db row cs)

/-- Does looking for a criterion that a row meets come to a pattern that is too long? -/
def anyOverruns (db : Content) (row : TableRow) : List Criterion → Bool
  | [] => false
  | c :: cs => overruns db row c || (!holds db row c && anyOverruns db row cs)

end

/-- The rows that meet the criterion. -/
def select (db : Content) (rows : List TableRow) (c : Criterion) :
    Except Error (List TableRow) :=
  if rows.any fun row => c.overruns db row then .error .badOperation
  else .ok (rows.filter fun row => c.holds db row)

mutual

/-- The parameters of a criterion, in order. -/
def parameters : Criterion → List Parameter
  | .compare _ _ p => [p]
  | .member _ ps => ps
  | .like _ p _ _ => [p]
  | .all cs | .any cs => parametersOf cs
  | .related _ inner => parameters inner
  | .constant _ | .isNull _ _ | .unrelated _ => []

/-- The parameters of criteria, in order. -/
def parametersOf : List Criterion → List Parameter
  | [] => []
  | c :: cs => parameters c ++ parametersOf cs

end

/-- The criterion that a column compares with a value that has been read by the column. A column
compares with null and with truth values only for equality. -/
def comparing (entity : String) (column : Column) (c : Comparison) (v : Value) :
    Except Error Criterion :=
  match c, v with
  | .startsWith, v =>
    .ok (.constant ((entity ++ "." ++ column.name).startsWith v.toText))
  | .multipleOf, v => .ok (.compare column c (.ofValue column.type v))
  | .equal, .null => .ok (.isNull column false)
  | .unequal, .null => .ok (.isNull column true)
  | _, .null => .error .badComparison
  | .equal, .bool b | .unequal, .bool b => .ok (.compare column c (.integer (if b then 1 else 0)))
  | _, .bool _ => .error .badComparison
  | c, v => .ok (.compare column c (.ofValue column.type v))

/-- Does a relation lead to a row, or to none? A relation to one row is looked for in the column
that points to it. -/
def leading (r : Relation) (negated : Bool) : Criterion :=
  match r.many, r.link with
  | false, .columns own _ => .isNull ⟨own, .untyped⟩ (!negated)
  | _, _ => if negated then .unrelated r else .related r (.all [])

/-- The criterion that a relation compares with a value: all that can be said of one is whether it
leads to a row. -/
def comparingRelation (entity : String) (r : Relation) (c : Comparison) (v : Value) :
    Except Error Criterion :=
  match c, v with
  | .startsWith, v => .ok (.constant ((entity ++ "." ++ r.name).startsWith v.toText))
  | .equal, .null => .ok (leading r true)
  | .unequal, .null => .ok (leading r false)
  | .equal, _ => .error (if r.many then .badCollection else .badComparison)
  | .unequal, _ => .error (if r.many then .badCollection else .noMember)
  | _, _ => .error .notSupported

/-- The criterion that a column is one of some values that have been read by the column. Beside null
there are only values that can be keys. -/
def among (column : Column) (vs : List Value) : Except Error Criterion :=
  if vs.any Value.isNull && !Value.allHashable vs then .error .wrongKind
  else .ok (.member column (Parameter.ofMembers column.type vs))

end Criterion

/-- The criterion on rows of an entity by their mark of deletion, if it says anything. -/
def Entity.trashedCriterion (e : Entity) (mode : Trashed) : Option Criterion :=
  match mode, e.softDelete.bind e.column? with
  | .excluded, some column => some (.isNull column false)
  | .only, some column => some (.isNull column true)
  | _, _ => none

/-! ## Queries that are refused -/

/-- Why a database does not take one of some parameters, if so. -/
def Parameter.refusal? (p : Parameter) : Option Error :=
  match p with
  | .untaken => some .badBinding
  | p => if p.overflows then some .overflow else none

/-- Why a query with a criterion and further parameters is refused, if it is. A value that
a parameter cannot hold comes first, then a query that the database refuses, then the first value
that it does not take. -/
def Criterion.fault? (c : Criterion) (further : List Parameter) (meaningless : Bool) :
    Option Error :=
  let parameters := c.parameters ++ further
  if parameters.any fun p => match p with
    | .unfit => true
    | _ => false
  then some .badParameter
  else if meaningless || Parameter.countLimit < parameters.length then some .badOperation
  else parameters.findSome? Parameter.refusal?

end Listing
