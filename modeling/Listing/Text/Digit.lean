import Listing.Text.Ranges

/-!
# Digits

`digitValue?` reads a decimal digit of any script. `isDigit` is the wider class that also holds
digits which stand for a value but do not form numbers, such as superscripts. `ofAsciiDigits` and
`asciiDigits` go between a natural number and its decimal digits.
-/

namespace Listing.Text

/-- The code points of the digit zero of each script; the other nine digits follow it. -/
def zeroDigits : List Nat :=
  [48, 1632, 1776, 1984, 2406, 2534, 2662, 2790, 2918, 3046, 3174, 3302,
   3430, 3558, 3664, 3792, 3872, 4160, 4240, 6112, 6160, 6470, 6608, 6784,
   6800, 6992, 7088, 7232, 7248, 42528, 43216, 43264, 43472, 43504, 43600, 44016,
   65296, 66720, 68912, 69734, 69872, 69942, 70096, 70384, 70736, 70864, 71248, 71360,
   71472, 71904, 72016, 72784, 73040, 73120, 92768, 92864, 93008, 120782, 120792, 120802,
   120812, 120822, 123200, 123632, 125264, 130032]

/-- Code points that are digits by value and are in no decimal system. -/
def loneDigitRanges : Ranges :=
  [(178, 179), (185, 185), (4969, 4977), (6618, 6618), (8304, 8304), (8308, 8313), (8320, 8329),
   (9312, 9320), (9332, 9340), (9352, 9360), (9450, 9450), (9461, 9469), (9471, 9471),
   (10102, 10110), (10112, 10120), (10122, 10130), (68160, 68163), (69216, 69224), (69714, 69722),
   (127232, 127242)]

/-- The value of a decimal digit of any script. -/
def digitValue? (c : Char) : Option Nat :=
  (zeroDigits.find? fun z => z ≤ c.toNat && c.toNat < z + 10).map fun z => c.toNat - z

/-- Is the character a digit, decimal or not? -/
def isDigit (c : Char) : Bool := (digitValue? c).isSome || loneDigitRanges.has c

/-- One of the ten characters `0` to `9`. -/
def isAsciiDigit (c : Char) : Bool := '0' ≤ c && c ≤ '9'

/-- The digit character of a number below ten. -/
def asciiDigit (d : Nat) : Char := Char.ofNat (48 + d)

/-- The number that decimal digits write, most significant first. -/
def ofDigits (ds : List Nat) : Nat := ds.foldl (fun n d => 10 * n + d) 0

/-- The decimal digits of a number, most significant first. -/
def natDigits (n : Nat) : List Char := Nat.toDigits 10 n

end Listing.Text
