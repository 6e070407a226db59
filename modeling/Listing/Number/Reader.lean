import Listing.Number.Decimal

/-!
# Reading numbers

`readInteger?` reads an integer and `readBinary?` a double-precision number. Both take digits of
every script, white space around the number and single underscores between two digits, and
`readInteger?` refuses more than `maxDigits` digits.
-/

namespace Listing.Number

/-- The most digits a text may have to be read as an integer. -/
def maxDigits : Nat := 4300

/-- The white space that may surround a number: of the controls of ASCII, only those from the tab to
the carriage return. -/
def isPadding (c : Char) : Bool :=
  if c.toNat < 128 then c == ' ' || (9 ≤ c.toNat && c.toNat ≤ 13) else Text.isBlank c

/-- The characters of a number without the white space around them, digits in ASCII. -/
def body (s : String) : List Char := (Text.trim isPadding s.toList).map Decimal.asciiForm

/-- Take out the underscores, each of which has to stand between two digits; `prior` tells whether
the character before is a digit. -/
def dropUnderscores? : Bool → List Char → Option (List Char)
  | _, [] => some []
  | prior, '_' :: rest =>
    match rest with
    | d :: _ => if prior && Text.isAsciiDigit d then dropUnderscores? false rest else none
    | [] => none
  | _, c :: rest => (dropUnderscores? (Text.isAsciiDigit c) rest).map (c :: ·)

/-- Read an integer. -/
def readInteger? (s : String) : Option Int :=
  let (negative, cs) := Decimal.splitSign (body s)
  (dropUnderscores? false cs).bind fun ds =>
    if ds.isEmpty || !ds.all Text.isAsciiDigit || maxDigits < ds.length then none
    else some (if negative then -(Decimal.digitsValue ds : Int) else Decimal.digitsValue ds)

/-- Read a double-precision number. -/
def readBinary? (s : String) : Option Binary64 :=
  let (negative, cs) := Decimal.splitSign (body s)
  let word := cs.map Char.toLower
  if word = ['i', 'n', 'f'] || word = ['i', 'n', 'f', 'i', 'n', 'i', 't', 'y'] then
    some (.infinite negative)
  else if word = ['n', 'a', 'n'] then some .nan
  else
    ((dropUnderscores? false cs).bind Decimal.scaled?).map fun p =>
      Binary64.ofScaled negative p.1 p.2

end Listing.Number
