import Listing.Number.Reader
import Listing.Number.Shortest
import Listing.Text.Quoted
import Listing.Value

/-!
# Texts of values

`Value.toText` is the text of a value on its own, where a text stands for itself. `Value.spelled` is
its unambiguous spelling, with texts in quotation marks; the members of a collection are always
spelled. `Value.typeName` names the kind of a value in messages.

An integer with more than `Number.maxDigits` digits has no text, and neither has a value with such
an integer in it: `Value.hasText`.
-/

namespace Listing

/-- The text of a natural number. -/
def natText (n : Nat) : String := String.ofList (Text.natDigits n)

/-- The text of an integer. -/
def intText (n : Int) : String := if n < 0 then "-" ++ natText n.natAbs else natText n.natAbs

/-- The least natural number that has too many digits for a text. -/
def integerLimit : Nat := Nat.pow 10 Number.maxDigits

/-- Texts with `separator` between them. -/
def joined (separator : String) : List String → String
  | [] => ""
  | [s] => s
  | s :: rest => s ++ separator ++ joined separator rest

/-- The spelling of a distance from universal time in microseconds. -/
def offsetSpelled (o : Int) : String :=
  if o = 0 then "datetime.timezone.utc"
  else
    let days := o / 86400000000
    let rest := (o % 86400000000).toNat
    let seconds := rest / 1000000
    let micros := rest % 1000000
    let parts :=
      (if days = 0 then [] else ["days=" ++ intText days]) ++
      (if seconds = 0 then [] else ["seconds=" ++ natText seconds]) ++
      (if micros = 0 then [] else ["microseconds=" ++ natText micros])
    "datetime.timezone(datetime.timedelta(" ++ joined ", " parts ++ "))"

/-- The spelling of a date. -/
def Date.spelled (d : Date) : String :=
  "datetime.date(" ++ joined ", " ([d.year, d.month, d.day].map natText) ++ ")"

/-- The spelling of a moment; seconds and microseconds are left out where they are zero. -/
def Moment.spelled (m : Moment) : String :=
  let numbers := [m.date.year, m.date.month, m.date.day, m.hour, m.minute] ++
    (if m.micro ≠ 0 then [m.second, m.micro] else if m.second ≠ 0 then [m.second] else [])
  let zone := (m.offset.map fun o => ["tzinfo=" ++ offsetSpelled o]).getD []
  "datetime.datetime(" ++ joined ", " (numbers.map natText ++ zone) ++ ")"

/-- The name of a form. -/
def Form.typeName : Form → String
  | .column => "Field"
  | .fieldCallback => "FieldCallback"
  | .relationAggregate => "FieldRelationAggregate"
  | .fieldGroup => "FieldGroup"
  | .exact => "FilterExact"
  | .member => "FilterIn"
  | .compare => "FilterCompare"
  | .like => "FilterLike"
  | .scope => "FilterScope"
  | .search => "FilterSearch"
  | .trashed => "FilterTrashed"
  | .filterCallback => "FilterCallback"
  | .relation => "IncludeRelation"
  | .inclusionCallback => "IncludeCallback"
  | .sortKey => "SortAttribute"
  | .selectorSettings => "SelectorConfig"
  | .filterSettings => "FilterConfig"
  | .sortSettings => "SortConfig"
  | .pagingSettings => "PaginationConfig"

namespace Value

/-- The name of a value's kind. -/
def typeName : Value → String
  | .null => "NoneType"
  | .bool _ => "bool"
  | .int _ => "int"
  | .binary _ => "float"
  | .decimal _ => "Decimal"
  | .text _ => "str"
  | .bytes _ => "bytes"
  | .moment _ => "datetime"
  | .date _ => "date"
  | .list _ => "list"
  | .tuple _ => "tuple"
  | .set _ => "set"
  | .map _ => "dict"
  | .record _ => "Row"
  | .choice _ => "EnumLike"
  | .request _ _ => "Request"
  | .cursor _ _ => "Cursor"
  | .finished form _ => form.typeName
  | .function _ _ => "function"
  | .object kind => kind

mutual

/-- The spelling of a value. -/
def spelled : Value → String
  | .null => "None"
  | .bool b => if b then "True" else "False"
  | .int n => intText n
  | .binary x => x.toText
  | .decimal d => "Decimal('" ++ d.toText ++ "')"
  | .text s => Text.quoted s
  | .bytes os => Text.quotedOctets os
  | .moment m => m.spelled
  | .date d => d.spelled
  | .list vs => "[" ++ joined ", " (spelledItems vs) ++ "]"
  | .tuple [v] => "(" ++ spelled v ++ ",)"
  | .tuple vs => "(" ++ joined ", " (spelledItems vs) ++ ")"
  | .set [] => "set()"
  | .set vs => "\x7b" ++ joined ", " (spelledItems vs) ++ "\x7d"
  | .map es => "\x7b" ++ joined ", " (spelledEntries es) ++ "\x7d"
  | .record _ => "<Row object>"
  | .choice _ => "<EnumLike object>"
  | .request _ _ => "<Request object>"
  | .cursor ps forward =>
    "Cursor(\x7b" ++ joined ", " (spelledEntries ps) ++ "\x7d, points_to_next_items=" ++
      (if forward then "True" else "False") ++ ")"
  | .finished form parts =>
    form.typeName ++ "(" ++ joined ", " (spelledParts form.partNames parts) ++ ")"
  | .function _ _ => "<function>"
  | .object kind => "<" ++ kind ++ " object>"

/-- The spellings of values. -/
def spelledItems : List Value → List String
  | [] => []
  | v :: vs => spelled v :: spelledItems vs

/-- The spellings of the entries of a map. -/
def spelledEntries : List (Value × Value) → List String
  | [] => []
  | (k, v) :: es => (spelled k ++ ": " ++ spelled v) :: spelledEntries es

/-- The spellings of parts with their names. -/
def spelledParts : List String → List Value → List String
  | name :: names, v :: vs => (name ++ "=" ++ spelled v) :: spelledParts names vs
  | _, _ => []

end

/-- The text of a value. -/
def toText : Value → String
  | .text s => s
  | .decimal d => d.toText
  | .moment m => m.toText ' '
  | .date d => d.toText
  | v => spelled v

mutual

/-- Does the value have a text? -/
def hasText : Value → Bool
  | .int n => n.natAbs < integerLimit
  | .list vs | .tuple vs | .set vs | .finished _ vs => allHaveText vs
  | .map es | .cursor es _ => entriesHaveText es
  | _ => true

/-- Do all values have a text? -/
def allHaveText : List Value → Bool
  | [] => true
  | v :: vs => hasText v && allHaveText vs

/-- Do all keys and values have a text? -/
def entriesHaveText : List (Value × Value) → Bool
  | [] => true
  | (k, v) :: es => hasText k && hasText v && entriesHaveText es

end

end Value

end Listing
