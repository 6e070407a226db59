import Listing.Text.Printable

/-!
# Quoted texts

`quoted` writes a text between quotation marks so that it can be told apart from its neighbours in
a message: the mark is an apostrophe, unless the text holds apostrophes and no double quotes.
Unprintable characters become escapes with the fewest hexadecimal digits out of two, four and eight.
`quotedOctets` does the same for octets, each of which outside printable ASCII becomes an escape.
-/

namespace Listing.Text

/-- The mark around a text of which `holds` tells which characters are in it. -/
def mark (holds : Char → Bool) : Char := if holds '\'' && !holds '"' then '"' else '\''

/-- A number in hexadecimal with at least `width` digits. -/
def hex (width n : Nat) : List Char :=
  let ds := Nat.toDigits 16 n
  List.replicate (width - ds.length) '0' ++ ds

/-- The escape of a code point by its number. -/
def codeEscape (n : Nat) : List Char :=
  if n < 0x100 then '\\' :: 'x' :: hex 2 n
  else if n < 0x10000 then '\\' :: 'u' :: hex 4 n
  else '\\' :: 'U' :: hex 8 n

/-- A character as it stands between two marks `q`. -/
def quotedChar (q c : Char) : List Char :=
  if c = q || c = '\\' then ['\\', c]
  else if c = '\n' then ['\\', 'n']
  else if c = '\r' then ['\\', 'r']
  else if c = '\t' then ['\\', 't']
  else if isPrintable c then [c]
  else codeEscape c.toNat

/-- A text between quotation marks. -/
def quoted (s : String) : String :=
  let cs := s.toList
  let q := mark cs.contains
  String.ofList (q :: cs.flatMap (quotedChar q) ++ [q])

/-- An octet as it stands between two marks `q`. -/
def quotedOctet (q : Char) (o : UInt8) : List Char :=
  if o.toNat < 127 then quotedChar q (Char.ofNat o.toNat) else codeEscape o.toNat

/-- Octets between quotation marks, with a `b` in front. -/
def quotedOctets (os : List UInt8) : String :=
  let q := mark fun c => os.any fun o => o.toNat == c.toNat
  String.ofList ('b' :: q :: os.flatMap (quotedOctet q) ++ [q])

end Listing.Text
