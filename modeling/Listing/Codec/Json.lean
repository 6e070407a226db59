import Listing.Error
import Listing.Value.Equality
import Listing.Number.Reader

/-!
# JSON

`Json.render` writes a value as JSON in ASCII without spaces. Maps may have texts, numbers, truth
values and null as keys, all of which become texts; a value that JSON does not know is written as
its text.

`Json.parse` reads JSON as a value. An object with one key twice keeps the last value in the first
place. Beside the standard the words `NaN`, `Infinity` and `-Infinity` are numbers, in both
directions.
-/

namespace Listing.Json

/-! ## Writing -/

/-- The escape of a unit of sixteen bits. -/
def unitEscape (n : Nat) : List Char := '\\' :: 'u' :: Text.hex 4 n

/-- A character of a text. -/
def renderChar (c : Char) : List Char :=
  if c = '"' || c = '\\' then ['\\', c]
  else if c = '\n' then ['\\', 'n']
  else if c = '\r' then ['\\', 'r']
  else if c = '\t' then ['\\', 't']
  else if c = '\x0c' then ['\\', 'f']
  else if c = '\x08' then ['\\', 'b']
  else if 0x20 ≤ c.toNat && c.toNat < 0x7f then [c]
  else if c.toNat < 0x10000 then unitEscape c.toNat
  else
    let n := c.toNat - 0x10000
    unitEscape (0xd800 + n / 0x400) ++ unitEscape (0xdc00 + n % 0x400)

/-- A text. -/
def renderText (s : String) : List Char := '"' :: s.toList.flatMap renderChar ++ ['"']

/-- A binary number. -/
def renderBinary : Binary64 → List Char
  | .nan => "NaN".toList
  | .infinite negative => if negative then "-Infinity".toList else "Infinity".toList
  | x => x.toChars

/-- A truth value. -/
def renderBool (b : Bool) : List Char := if b then "true".toList else "false".toList

/-- The text of a key. -/
def keyText : Value → Except Error String
  | .text s => .ok s
  | .null => .ok "null"
  | .bool b => .ok (String.ofList (renderBool b))
  | .int n => (Value.int n).asText
  | .binary x => .ok (String.ofList (renderBinary x))
  | _ => .error .wrongKind

mutual

/-- A value. -/
def renderChars : Value → Except Error (List Char)
  | .null => .ok "null".toList
  | .bool b => .ok (renderBool b)
  | .int n => do return (← (Value.int n).asText).toList
  | .binary x => .ok (renderBinary x)
  | .text s => .ok (renderText s)
  | .list vs => do return '[' :: (← renderItems vs) ++ [']']
  | .tuple vs => do return '[' :: (← renderItems vs) ++ [']']
  | .map es => do return '\x7b' :: (← renderEntries es) ++ ['\x7d']
  | v => do return renderText (← v.asText)

/-- The items of an array. -/
def renderItems : List Value → Except Error (List Char)
  | [] => .ok []
  | v :: vs => do
    let first ← renderChars v
    let rest ← renderItems vs
    return first ++ (if vs.isEmpty then rest else ',' :: rest)

/-- The members of an object. -/
def renderEntries : List (Value × Value) → Except Error (List Char)
  | [] => .ok []
  | (k, v) :: es => do
    let key ← keyText k
    let value ← renderChars v
    let rest ← renderEntries es
    return renderText key ++ ':' :: value ++ (if es.isEmpty then rest else ',' :: rest)

end

/-- The JSON text of a value. -/
def render (v : Value) : Except Error String := (renderChars v).map String.ofList

/-! ## Reading -/

/-- The white space between tokens. -/
def isSpace (c : Char) : Bool := c == ' ' || c == '\t' || c == '\n' || c == '\r'

/-- The characters after white space. -/
def skipSpace (cs : List Char) : List Char := cs.dropWhile isSpace

/-- The value of a hexadecimal digit. -/
def hexValue? (c : Char) : Option Nat :=
  if '0' ≤ c && c ≤ '9' then some (c.toNat - 48)
  else if 'a' ≤ c && c ≤ 'f' then some (c.toNat - 87)
  else if 'A' ≤ c && c ≤ 'F' then some (c.toNat - 55)
  else none

/-- A unit of sixteen bits from four hexadecimal digits. -/
def unit? (a b c d : Char) : Option Nat := do
  return (((← hexValue? a) * 16 + (← hexValue? b)) * 16 + (← hexValue? c)) * 16 + (← hexValue? d)

/-- The character of an escape with one letter. -/
def shortEscape? (c : Char) : Option Char :=
  if c = '"' || c = '\\' || c = '/' then some c
  else if c = 'n' then some '\n'
  else if c = 'r' then some '\r'
  else if c = 't' then some '\t'
  else if c = 'f' then some '\x0c'
  else if c = 'b' then some '\x08'
  else none

/-- What a first half of a surrogate pair without its second half is read as. -/
def loneHalf : Option Nat → List Char
  | some _ => ['\ufffd']
  | none => []

/-- The characters that a unit adds after a possible first half of a pair, and the first half that
it leaves open. -/
def joinUnit (half : Option Nat) (n : Nat) : List Char × Option Nat :=
  if 0xd800 ≤ n && n < 0xdc00 then (loneHalf half, some n)
  else if 0xdc00 ≤ n && n < 0xe000 then
    match half with
    | some h => ([Char.ofNat (0x10000 + (h - 0xd800) * 0x400 + (n - 0xdc00))], none)
    | none => (['\ufffd'], none)
  else (loneHalf half ++ [Char.ofNat n], none)

/-- Read the characters of a text up to its closing mark, after a possible first half of a pair. -/
def scanText (half : Option Nat) : List Char → Option (List Char × List Char)
  | [] => none
  | '"' :: rest => some (loneHalf half, rest)
  | '\\' :: 'u' :: a :: b :: c :: d :: rest =>
    match unit? a b c d with
    | none => none
    | some n =>
      let (cs, open?) := joinUnit half n
      (scanText open? rest).map fun p => (cs ++ p.1, p.2)
  | '\\' :: e :: rest =>
    match shortEscape? e with
    | none => none
    | some c => (scanText none rest).map fun p => (loneHalf half ++ c :: p.1, p.2)
  | c :: rest =>
    if c.toNat < 0x20 || c = '\\' then none
    else (scanText none rest).map fun p => (loneHalf half ++ c :: p.1, p.2)

/-- The integer part of a number: a zero, or digits that do not begin with a zero. -/
def scanWhole (cs : List Char) : Option (List Char × List Char) :=
  match cs with
  | '0' :: rest => some (['0'], rest)
  | _ =>
    let ds := cs.takeWhile Text.isAsciiDigit
    if ds.isEmpty then none else some (ds, cs.dropWhile Text.isAsciiDigit)

/-- The fraction of a number, if digits follow the point. -/
def scanFraction (cs : List Char) : List Char × List Char :=
  match cs with
  | '.' :: rest =>
    let ds := rest.takeWhile Text.isAsciiDigit
    if ds.isEmpty then ([], cs) else ('.' :: ds, rest.dropWhile Text.isAsciiDigit)
  | _ => ([], cs)

/-- The exponent of a number, if it has digits. -/
def scanExponent (cs : List Char) : List Char × List Char :=
  match cs with
  | e :: rest =>
    if e = 'e' || e = 'E' then
      let (mark, after) := match rest with
        | '-' :: after => (['-'], after)
        | '+' :: after => (['+'], after)
        | after => ([], after)
      let ds := after.takeWhile Text.isAsciiDigit
      if ds.isEmpty then ([], cs) else (e :: mark ++ ds, after.dropWhile Text.isAsciiDigit)
    else ([], cs)
  | [] => ([], cs)

/-- Read a number without a fraction and an exponent as an integer, any other as a binary number. -/
def scanNumber (cs : List Char) : Option (Value × List Char) := do
  let (mark, rest) := match cs with
    | '-' :: rest => (['-'], rest)
    | rest => ([], rest)
  let (whole, rest) ← scanWhole rest
  let (fraction, rest) := scanFraction rest
  let (exponent, rest) := scanExponent rest
  if fraction.isEmpty && exponent.isEmpty then
    return (.int (← Number.readInteger? (String.ofList (mark ++ whole))), rest)
  else
    let spelling := String.ofList (mark ++ whole ++ fraction ++ exponent)
    return (.binary (← Number.readBinary? spelling), rest)

/-- The words of JSON and their values. -/
def words : List (String × Value) :=
  [("null", .null), ("true", .bool true), ("false", .bool false), ("NaN", .binary .nan),
   ("Infinity", .binary (.infinite false)), ("-Infinity", .binary (.infinite true))]

/-- Read a word or a number. -/
def scanScalar (cs : List Char) : Option (Value × List Char) :=
  match words.find? fun w => w.1.toList.isPrefixOf cs with
  | some w => some (w.2, cs.drop w.1.length)
  | none => scanNumber cs

/-- An optional result, the absence of which is an error of the text. -/
def orBad {α : Type} : Option α → Except Error α
  | some a => .ok a
  | none => .error .badValue

mutual

/-- Read a value. The first number bounds the steps, the second the depth of nesting. -/
def parseValue : Nat → Nat → List Char → Except Error (Value × List Char)
  | 0, _, _ => .error .badValue
  | fuel + 1, depth, cs =>
    match cs with
    | [] => .error .badValue
    | c :: rest =>
      if c = '"' then do
        let (s, rest) ← orBad (scanText none rest)
        return (.text (String.ofList s), rest)
      else if c = '[' then
        match depth with
        | 0 => .error .tooDeep
        | depth + 1 => do
          let rest := skipSpace rest
          if rest.head? = some ']' then return (.list [], rest.drop 1)
          else
            let (vs, rest) ← parseItems fuel depth rest
            return (.list vs, rest)
      else if c = '\x7b' then
        match depth with
        | 0 => .error .tooDeep
        | depth + 1 => do
          let rest := skipSpace rest
          if rest.head? = some '\x7d' then return (.map [], rest.drop 1)
          else
            let (es, rest) ← parseMembers fuel depth rest
            return (.map (Entries.ofPairs es), rest)
      else orBad (scanScalar cs)

/-- Read the items of an array up to its closing bracket. -/
def parseItems : Nat → Nat → List Char → Except Error (List Value × List Char)
  | 0, _, _ => .error .badValue
  | fuel + 1, depth, cs => do
    let (v, rest) ← parseValue fuel depth cs
    match skipSpace rest with
    | ']' :: rest => return ([v], rest)
    | ',' :: rest =>
      let (vs, rest) ← parseItems fuel depth (skipSpace rest)
      return (v :: vs, rest)
    | _ => .error .badValue

/-- Read the members of an object up to its closing brace. -/
def parseMembers : Nat → Nat → List Char → Except Error (List (Value × Value) × List Char)
  | 0, _, _ => .error .badValue
  | fuel + 1, depth, cs => do
    match cs with
    | '"' :: rest =>
      let (k, rest) ← orBad (scanText none rest)
      match skipSpace rest with
      | ':' :: rest =>
        let (v, rest) ← parseValue fuel depth (skipSpace rest)
        match skipSpace rest with
        | '\x7d' :: rest => return ([(.text (String.ofList k), v)], rest)
        | ',' :: rest =>
          let (es, rest) ← parseMembers fuel depth (skipSpace rest)
          return ((.text (String.ofList k), v) :: es, rest)
        | _ => .error .badValue
      | _ => .error .badValue
    | _ => .error .badValue

end

/-- How deeply arrays and objects may be nested. -/
def maxDepth : Nat := 985

/-- Read a JSON text. -/
def parse (cs : List Char) : Except Error Value := do
  let (v, rest) ← parseValue (2 * cs.length + 2) maxDepth (skipSpace cs)
  if (skipSpace rest).isEmpty then return v else .error .badValue

end Listing.Json
