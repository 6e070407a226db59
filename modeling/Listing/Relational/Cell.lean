import Listing.Codec.Utf8
import Listing.Relational.Schema
import Listing.Text.Pattern

/-!
# Cells and parameters

A database stores numbers, texts and octets. `Cell.ofValue` is what a column stores for a value,
`Parameter` what a query passes to it. A value is passed by its own kind if it has one, and by the
kind of the column otherwise: `ParameterKind` says which values a parameter can hold. A parameter
that meets a column is read the column's way: on a column of texts a number is its text, on any
other column a text that looks like a number is the number. Numbers come before texts, and texts
before octets; `null` compares with nothing.
-/

namespace Listing

/-- What is stored in a row under a column. -/
inductive Cell
  | null
  | number (x : Number)
  | text (s : String)
  | octets (os : List UInt8)

/-- What is passed to a query. -/
inductive Parameter
  | null
  | integer (n : Int)
  | real (x : Binary64)
  | text (s : String)
  | octets (os : List UInt8)
  /-- A value that the parameter cannot hold. -/
  | unfit
  /-- A value that the database does not take. -/
  | untaken

namespace Cell

/-- The text that stands for a moment. -/
def momentText (m : Moment) : String :=
  let seconds := Moment.toChars ' ' { m with micro := 0, offset := none }
  String.ofList (seconds ++ '.' :: Date.padded 6 m.micro)

/-- The nearest binary number to a decimal. -/
def realOfDecimal : Decimal → Binary64
  | .finite negative c e => .ofScaled negative c e
  | .infinite negative => .infinite negative
  | .nan _ _ _ => .nan

/-- What is stored for a value. -/
def ofValue : Value → Cell
  | .null => .null
  | .bool b => .number (.exact (.ofInt (if b then 1 else 0)))
  | .int n => .number (.exact (.ofInt n))
  | .binary x => .number (.ofBinary x)
  | .decimal d => .number (.ofBinary (realOfDecimal d))
  | .text s => .text s
  | .bytes os => .octets os
  | .moment m => .text (momentText m)
  | .date d => .text d.toText
  | v => .text v.toText

/-- The place of a cell's kind in the order of kinds. -/
def rank : Cell → Nat
  | .null => 0
  | .number _ => 1
  | .text _ => 2
  | .octets _ => 3

/-- The order of two cells. -/
def compare (a b : Cell) : Ordering :=
  match a, b with
  | .number x, .number y => (x.compare? y).getD .eq
  | .text s, .text t => Ord.compare s t
  | .octets s, .octets t => Ord.compare s t
  | a, b => Ord.compare a.rank b.rank

end Cell

/-- The cell of a row under a column. -/
def TableRow.cell (r : TableRow) (column : Column) : Cell := .ofValue (r.get column.name)

namespace Parameter

/-- The greatest integer that can be passed. -/
def maxInteger : Int := (Nat.pow 2 63 : Nat) - 1

/-- How many parameters a query takes at most. -/
def countLimit : Nat := 32766

/-- How many octets the text of a pattern has at most. -/
def patternLimit : Nat := 50000

/-- Is an integer too large to be passed? -/
def overflows : Parameter → Bool
  | .integer n => n < -maxInteger - 1 || maxInteger < n
  | _ => false

/-- A binary number as a parameter. -/
def ofBinary : Binary64 → Parameter
  | .nan => .null
  | x => .real x

end Parameter

/-- What a parameter can hold. -/
inductive ParameterKind
  | boolean
  | number
  | moment
  | date
  | octets
  /-- Whatever the database takes. -/
  | plain
  deriving DecidableEq

namespace ParameterKind

/-- The kind of the parameters that are compared with a column. -/
def ofColumn : ColumnType → ParameterKind
  | .boolean => .boolean
  | .decimal | .binary => .number
  | .moment _ => .moment
  | .date => .date
  | .integer | .text | .untyped => .plain

/-- The kind of a value, if it has one. -/
def ofValue? : Value → Option ParameterKind
  | .bool _ => some .boolean
  | .binary _ | .decimal _ => some .number
  | .int _ | .text _ => some .plain
  | .moment _ => some .moment
  | .date _ => some .date
  | .bytes _ => some .octets
  | _ => none

/-- A value as a parameter that holds whatever the database takes. -/
def passPlain : Value → Parameter
  | .bool b => .integer (if b then 1 else 0)
  | .int n => .integer n
  | .binary x => .ofBinary x
  | .text s => .text s
  | .bytes os => .octets os
  | .moment m => .text (m.toText ' ')
  | .date d => .text d.toText
  | _ => .untaken

/-- A value as a parameter that holds a number. -/
def passNumber : Value → Parameter
  | .bool b => .ofBinary (.ofInt (if b then 1 else 0))
  | .int n => .ofBinary (.ofInt n)
  | .binary x => .ofBinary x
  | .decimal (.nan _ true _) => .unfit
  | .decimal d => .ofBinary (Cell.realOfDecimal d)
  | .text s => ((Number.readBinary? s).map Parameter.ofBinary).getD .unfit
  | _ => .unfit

/-- A value as a parameter that holds a truth value. -/
def passBoolean (v : Value) : Parameter :=
  if v.equal (.int 0) then .integer 0 else if v.equal (.int 1) then .integer 1 else .unfit

/-- A value as a parameter of a kind. -/
def pass (k : ParameterKind) (v : Value) : Parameter :=
  match k, v with
  | _, .null => .null
  | .plain, v => passPlain v
  | .number, v => passNumber v
  | .boolean, v => passBoolean v
  | .date, .date d => .text d.toText
  | .date, .moment m => .text m.date.toText
  | .moment, .moment m => .text (Cell.momentText m)
  | .moment, .date d => .text (Cell.momentText ⟨d, 0, 0, 0, 0, none⟩)
  | .octets, .bytes os => .octets os
  | .date, _ | .moment, _ | .octets, _ => .unfit

end ParameterKind

namespace Parameter

/-- A value as a parameter that is compared with a column: by its own kind, or else the column's. -/
def ofValue (t : ColumnType) (v : Value) : Parameter :=
  ((ParameterKind.ofValue? v).getD (.ofColumn t)).pass v

/-- The members of a list as parameters. The first member decides by which kind all are passed,
except where null is among them and each goes by its own. -/
def ofMembers (t : ColumnType) (vs : List Value) : List Parameter :=
  if vs.any Value.isNull then vs.map (ofValue t)
  else
    match vs with
    | [] => []
    | v :: _ => vs.map ((ParameterKind.ofValue? v).getD (.ofColumn t)).pass

/-! ## Meeting a column -/

/-- White space around a number in a text. -/
def isSpace (c : Char) : Bool := c == ' ' || (9 ≤ c.toNat && c.toNat ≤ 13)

/-- The number that a text looks like. -/
def number? (s : String) : Option Number :=
  let (negative, cs) := Decimal.splitSign (Text.trim isSpace s.toList)
  (Decimal.scaled? cs).map fun p =>
    if cs.all Text.isAsciiDigit && p.1 ≤ maxInteger.toNat then .exact ⟨negative, p.1, 0⟩
    else .ofBinary (.ofScaled negative p.1 p.2)

/-- The first fifteen digits of the positive number `m · 2 ^ e`, rounded and without zeros at the
end, and the exponent of the last one. -/
def leadingDigits (m : Nat) (e : Int) : Nat × Int :=
  let i := Binary64.interval m e
  let k := Binary64.decimalExponent i.value i.den - 14
  let unit := Binary64.gridPoint 1 k
  Binary64.dropZeros 20 (Binary64.roundHalfEven (i.value * unit.2) (i.den * unit.1)) k

/-- The digits `ds` of which the first stands for multiples of `10 ^ p`, with an exponent where the
fifteen digits do not reach the point. -/
def realLayout (ds : List Char) (p : Int) : List Char :=
  match ds with
  | d :: rest =>
    if p < -4 || 15 ≤ p then
      d :: '.' :: (if rest.isEmpty then ['0'] else rest) ++ 'e' :: Binary64.exponentText p
    else Binary64.layout ds p
  | [] => []

/-- The text of a binary number as databases write it. -/
def realText : Binary64 → String
  | .nan => ""
  | .infinite negative => if negative then "-Inf" else "Inf"
  | .finite negative m e =>
    if m = 0 then "0.0"
    else
      let (d, k) := leadingDigits m e
      let ds := Nat.toDigits 10 d
      String.ofList ((if negative then ['-'] else []) ++ realLayout ds (k + ds.length - 1))

/-- The cell that a parameter is for a column of a type. -/
def cell (t : ColumnType) : Parameter → Cell
  | .null | .unfit | .untaken => .null
  | .integer n => if t = .text then .text (intText n) else .number (.exact (.ofInt n))
  | .real x => if t = .text then .text (realText x) else .number (.ofBinary x)
  | .text s =>
    if t = .text then .text s
    else
      match number? s with
      | some x => .number x
      | none => .text s
  | .octets os => .octets os

/-- The cell that a parameter is by itself. -/
def ownCell : Parameter → Cell
  | .null | .unfit | .untaken => .null
  | .integer n => .number (.exact (.ofInt n))
  | .real x => .number (.ofBinary x)
  | .text s => .text s
  | .octets os => .octets os

/-- The text of a parameter that stands for a pattern. -/
def text? : Parameter → Option String
  | .text s => some s
  | .integer n => some (intText n)
  | .real x => some (realText x)
  | .octets os => (Utf8.decode? os).map String.ofList
  | .null | .unfit | .untaken => none

/-- Is the parameter too long for a pattern? -/
def isOverlong : Parameter → Bool
  | .text s => patternLimit < s.utf8ByteSize
  | .octets os => patternLimit < os.length
  | _ => false

end Parameter

/-! ## Orders of rows -/

/-- The order of two rows by columns, each ascending or descending; the first column in which they
differ decides. Null is before all else. -/
def TableRow.compareBy : List (Column × Bool) → TableRow → TableRow → Ordering
  | [], _, _ => .eq
  | (column, descends) :: rest, a, b =>
    let o := (a.cell column).compare (b.cell column)
    if o = .eq then compareBy rest a b else if descends then o.swap else o

/-- Rows in the order of columns; rows that tie keep their order. -/
def TableRow.sortBy (sorting : List (Column × Bool)) (rows : List TableRow) : List TableRow :=
  rows.mergeSort fun a b => compareBy sorting a b != .gt

/-! ## Texts of cells -/

/-- The text of a value under a column, which patterns are matched with. A decimal without a
fraction is written as an integer. -/
def cellText? (t : ColumnType) (v : Value) : Option String :=
  match v with
  | .null => none
  | .bool b => some (if b then "1" else "0")
  | .int n => some (intText n)
  | .binary x => some (Parameter.realText x)
  | .decimal (.finite negative c e) =>
    let whole := (Exact.mk negative c e).truncate
    if t = .decimal && (Exact.mk negative c e).compare (.ofInt whole) == .eq then
      some (intText whole)
    else some (Parameter.realText (.ofScaled negative c e))
  | .moment m => some (Cell.momentText m)
  | .date d => some d.toText
  | v => some v.toText

end Listing
