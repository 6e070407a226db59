import Listing.Codec.Utf8
import Listing.Text.Split

/-!
# Query strings

A query string lists names with values, `name=value` joined by `&`. `Percent.encode` writes a text
so that it can stand there: letters, digits and `_.-~` stand for themselves, a space is a `+`, and
every other octet is written in hexadecimal after a percent sign. `Percent.decode` reads such a text
and takes a percent sign without two hexadecimal digits as itself.
-/

namespace Listing

namespace Percent

/-- Does the character stand for itself? -/
def isPlain (c : Char) : Bool :=
  ('a' ≤ c && c ≤ 'z') || ('A' ≤ c && c ≤ 'Z') || ('0' ≤ c && c ≤ '9') ||
    c == '_' || c == '.' || c == '-' || c == '~'

/-- A hexadecimal digit, in capitals. -/
def hexDigit (n : Nat) : Char := "0123456789ABCDEF".toList.getD n '0'

/-- The value of a hexadecimal digit. -/
def hexValue? (c : Char) : Option Nat :=
  if '0' ≤ c && c ≤ '9' then some (c.toNat - 48)
  else if 'a' ≤ c && c ≤ 'f' then some (c.toNat - 87)
  else if 'A' ≤ c && c ≤ 'F' then some (c.toNat - 55)
  else none

/-- A character in a query string. -/
def encodeChar (c : Char) : List Char :=
  if isPlain c then [c]
  else if c = ' ' then ['+']
  else (String.utf8EncodeChar c).flatMap fun o =>
    ['%', hexDigit (o.toNat / 16), hexDigit (o.toNat % 16)]

/-- Octets in a query string, those of ASCII as the characters that they are. -/
def encodeOctets (os : List UInt8) : List Char :=
  os.flatMap fun o =>
    if o < 128 then encodeChar (Char.ofNat o.toNat)
    else ['%', hexDigit (o.toNat / 16), hexDigit (o.toNat % 16)]

/-- A text in a query string. -/
def encode (s : String) : List Char := s.toList.flatMap encodeChar

/-- The octets of characters of ASCII, two hexadecimal digits after a percent sign standing for
one. -/
def octets : List Char → List UInt8
  | [] => []
  | [c] => [UInt8.ofNat c.toNat]
  | [c, d] => [UInt8.ofNat c.toNat, UInt8.ofNat d.toNat]
  | c :: h :: l :: rest =>
    if c = '%' then
      match hexValue? h, hexValue? l with
      | some m, some n => UInt8.ofNat (16 * m + n) :: octets rest
      | _, _ => UInt8.ofNat c.toNat :: octets (h :: l :: rest)
    else UInt8.ofNat c.toNat :: octets (h :: l :: rest)

/-- Read characters, `run` being the run of characters of ASCII before them, reversed. -/
def decodeFrom : List Char → List Char → List Char
  | run, [] => Utf8.decodeLossy (octets run.reverse)
  | run, c :: cs =>
    if c.toNat < 128 then decodeFrom (c :: run) cs
    else Utf8.decodeLossy (octets run.reverse) ++ c :: decodeFrom [] cs

/-- Read a text from a query string. -/
def decode (cs : List Char) : String :=
  String.ofList (decodeFrom [] (cs.map fun c => if c = '+' then ' ' else c))

end Percent

namespace QueryString

/-- The pairs of a query string; empty pieces are left out. -/
def parse (s : String) : List (String × String) :=
  ((Text.splitOn "&" s).filter fun piece => !piece.toList.isEmpty).map fun piece =>
    match Text.cutFirst '=' piece with
    | some (name, value) => (Percent.decode name.toList, Percent.decode value.toList)
    | none => (Percent.decode piece.toList, "")

/-- One pair of a query string. -/
def renderPair (p : String × String) : List Char := Percent.encode p.1 ++ '=' :: Percent.encode p.2

/-- Pieces with an ampersand between them. -/
def renderPieces : List (List Char) → List Char
  | [] => []
  | [p] => p
  | p :: ps => p ++ '&' :: renderPieces ps

/-- The characters of a query string with these pairs. -/
def renderChars (ps : List (String × String)) : List Char := renderPieces (ps.map renderPair)

/-- The query string with these pairs. -/
def render (ps : List (String × String)) : String := String.ofList (renderChars ps)

end QueryString

end Listing
