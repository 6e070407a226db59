import Listing.Error
import Listing.Value.Kind
import Listing.Text.Split

/-!
# Attributes of values

A row that is no map is read by its attributes. `Value.attribute?` is the attribute of a value with
a name: the named values of an object, the parts of a finished value, the fields of a date. The
operations of a kind are attributes too, of which only their kind is known.
-/

namespace Listing.Value

/-- The names of the operations that a kind of value has, with blanks between them. -/
def operationNames : Value → String
  | .bool _ | .int _ =>
    "as_integer_ratio bit_count bit_length conjugate from_bytes to_bytes"
  | .binary _ =>
    "as_integer_ratio conjugate fromhex hex is_integer"
  | .decimal _ =>
    "adjusted as_integer_ratio as_tuple canonical compare compare_signal compare_total " ++
      "compare_total_mag conjugate copy_abs copy_negate copy_sign exp fma from_float " ++
      "is_canonical is_finite is_infinite is_nan is_normal is_qnan is_signed is_snan " ++
      "is_subnormal is_zero ln log10 logb logical_and logical_invert logical_or logical_xor max " ++
      "max_mag min min_mag next_minus next_plus next_toward normalize number_class quantize " ++
      "radix remainder_near rotate same_quantum scaleb shift sqrt to_eng_string to_integral " ++
      "to_integral_exact to_integral_value"
  | .text _ =>
    "capitalize casefold center count encode endswith expandtabs find format format_map index " ++
      "isalnum isalpha isascii isdecimal isdigit isidentifier islower isnumeric isprintable " ++
      "isspace istitle isupper join ljust lower lstrip maketrans partition removeprefix " ++
      "removesuffix replace rfind rindex rjust rpartition rsplit rstrip split splitlines " ++
      "startswith strip swapcase title translate upper zfill"
  | .bytes _ =>
    "capitalize center count decode endswith expandtabs find fromhex hex index isalnum " ++
      "isalpha isascii isdigit islower isspace istitle isupper join ljust lower lstrip " ++
      "maketrans partition removeprefix removesuffix replace rfind rindex rjust rpartition " ++
      "rsplit rstrip split splitlines startswith strip swapcase title translate upper zfill"
  | .list _ =>
    "append clear copy count extend index insert pop remove reverse sort"
  | .tuple _ =>
    "count index"
  | .set _ =>
    "add clear copy difference difference_update discard intersection intersection_update " ++
      "isdisjoint issubset issuperset pop remove symmetric_difference " ++
      "symmetric_difference_update union update"
  | .moment _ =>
    "astimezone combine ctime date dst fromisocalendar fromisoformat fromordinal " ++
      "fromtimestamp isocalendar isoformat isoweekday now replace strftime strptime time " ++
      "timestamp timetuple timetz today toordinal tzname utcfromtimestamp utcnow utcoffset " ++
      "utctimetuple weekday"
  | .date _ =>
    "ctime fromisocalendar fromisoformat fromordinal fromtimestamp isocalendar isoformat " ++
      "isoweekday replace strftime timetuple today toordinal weekday"
  | .cursor _ _ =>
    "decode encode offset_parameter parameter points_to_previous_items scalar_parameter"
  | .finished form _ =>
    match form with
    | .fieldGroup => ""
    | .selectorSettings | .filterSettings | .sortSettings | .pagingSettings => "from_mapping"
    | .sortKey => "orders"
    | .exact | .member | .compare | .like | .scope => "apply apply_internal"
    | _ => "apply"
  | _ => ""

/-- The kind of the operations of a kind of value. -/
def operationKind : Value → String
  | .cursor _ _ | .finished _ _ => "method"
  | _ => "builtin_function_or_method"

/-- A field of a date. -/
def dateField? (d : Date) (name : String) : Option Value :=
  match name with
  | "year" => some (.int d.year)
  | "month" => some (.int d.month)
  | "day" => some (.int d.day)
  | "min" => some (.date ⟨1, 1, 1⟩)
  | "max" => some (.date ⟨9999, 12, 31⟩)
  | "resolution" => some (.object "timedelta")
  | _ => none

/-- A field of a moment. -/
def momentField? (m : Moment) (name : String) : Option Value :=
  match name with
  | "hour" => some (.int m.hour)
  | "minute" => some (.int m.minute)
  | "second" => some (.int m.second)
  | "microsecond" => some (.int m.micro)
  | "fold" => some (.int 0)
  | "min" => some (.moment ⟨⟨1, 1, 1⟩, 0, 0, 0, 0, none⟩)
  | "max" => some (.moment ⟨⟨9999, 12, 31⟩, 23, 59, 59, 999999, none⟩)
  | "tzinfo" => some (if m.offset.isSome then .object "timezone" else .null)
  | name => dateField? m.date name

/-- The attribute of a value that is data, with a name. -/
def dataAttribute? (v : Value) (name : String) : Option Value :=
  match v with
  | .bool _ | .int _ =>
    let n : Value := .int ((v.toInt.toOption).getD 0)
    match name with
    | "real" | "numerator" => some n
    | "imag" => some (.int 0)
    | "denominator" => some (.int 1)
    | _ => none
  | .binary _ =>
    match name with
    | "real" => some v
    | "imag" => some (.binary (.zero false))
    | _ => none
  | .decimal _ =>
    match name with
    | "real" => some v
    | "imag" => some (.decimal (.finite false 0 0))
    | _ => none
  | .moment m => momentField? m name
  | .date d => dateField? d name
  | .record attributes => attributes.lookup name
  | .choice inner => if name = "value" then some inner else none
  | .cursor parameters forward =>
    match name with
    | "parameters" => some (.map parameters)
    | "points_to_next_items" => some (.bool forward)
    | _ => none
  | .finished form parts => (form.partNames.zip parts).lookup name
  | _ => none

/-- The attribute of a value with a name. -/
def attribute? (v : Value) (name : String) : Option Value :=
  match v.dataAttribute? name with
  | some a => some a
  | none =>
    if (Text.splitOn " " v.operationNames).contains name && !name.toList.isEmpty then
      some (.object v.operationKind)
    else none

/-- Why an operation of texts cannot be done with a value that is none: the value has no operation
of this name, or what it has does not do for a text's. -/
def operationFault (v : Value) (name : String) : Error :=
  if (v.attribute? name).isSome then .wrongKind else .noMember

/-- The text that a value is, for an operation of texts. -/
def textFor (v : Value) (operation : String) : Except Error String :=
  match v with
  | .text s => .ok s
  | v => .error (v.operationFault operation)

end Listing.Value
