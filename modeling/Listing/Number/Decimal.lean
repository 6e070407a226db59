import Listing.Number.Exact
import Listing.Text.Blank
import Listing.Text.Digit

/-!
# Decimal numbers

`Decimal` keeps a number with the digits it was written with, so `1.5` and `1.50` are two spellings
of one number. `Decimal.ofText?` reads one and `Decimal.toText` writes it: positional while the
exponent is not positive and the number is not below `10 ^ -6`, with an exponent otherwise.
-/

namespace Listing

/-- A decimal number, an infinity, or no number at all. -/
inductive Decimal
  /-- `± coefficient · 10 ^ exponent`. -/
  | finite (negative : Bool) (coefficient : Nat) (exponent : Int)
  | infinite (negative : Bool)
  /-- Not a number: quiet or signaling, with a diagnostic payload. -/
  | nan (negative signaling : Bool) (payload : Nat)
  deriving DecidableEq

namespace Decimal

/-- The greatest position of a first digit. -/
def maxAdjusted : Int := 999999999999999999

/-- The least exponent. -/
def minExponent : Int := -1999999999999999997

/-- The number, where its exponent is within the limits. -/
def finite? (negative : Bool) (coefficient : Nat) (exponent : Int) : Option Decimal :=
  let adjusted := exponent + (max (Binary64.digitCount coefficient) 1 : Nat) - 1
  if maxAdjusted < adjusted || exponent < minExponent then none
  else some (.finite negative coefficient exponent)

/-- A sign, if there is one, and the rest. -/
def splitSign : List Char → Bool × List Char
  | '-' :: cs => (true, cs)
  | '+' :: cs => (false, cs)
  | cs => (false, cs)

/-- The value of a text of digits `0` to `9`. -/
def digitsValue (cs : List Char) : Nat := cs.foldl (fun n c => 10 * n + (c.toNat - 48)) 0

/-- An exponent part: nothing, or an `e` followed by a signed number. -/
def exponent? : List Char → Option Int
  | [] => some 0
  | c :: cs =>
    if c = 'e' || c = 'E' then
      let (negative, ds) := splitSign cs
      if ds.isEmpty || !ds.all Text.isAsciiDigit then none
      else some (if negative then -(digitsValue ds : Int) else digitsValue ds)
    else none

/-- Digits with at most one point among them, and an exponent: the coefficient and the exponent it
comes with. -/
def scaled? (cs : List Char) : Option (Nat × Int) :=
  let whole := cs.takeWhile Text.isAsciiDigit
  let rest := cs.dropWhile Text.isAsciiDigit
  let (fraction, rest) := match rest with
    | '.' :: r => (r.takeWhile Text.isAsciiDigit, r.dropWhile Text.isAsciiDigit)
    | r => ([], r)
  if whole.isEmpty && fraction.isEmpty then none
  else (exponent? rest).map fun e => (digitsValue (whole ++ fraction), e - fraction.length)

/-- A payload: a text of digits `0` to `9`, or nothing. -/
def payload? (cs : List Char) : Option Nat :=
  if cs.all Text.isAsciiDigit then some (digitsValue cs) else none

/-- Read a number without surrounding white space, in the characters of ASCII. -/
def ofAscii? (cs : List Char) : Option Decimal :=
  let (negative, body) := splitSign cs
  let word := body.map Char.toLower
  if word = ['i', 'n', 'f'] || word = ['i', 'n', 'f', 'i', 'n', 'i', 't', 'y'] then
    some (.infinite negative)
  else match word with
    | 'n' :: 'a' :: 'n' :: r => (payload? r).map (.nan negative false)
    | 's' :: 'n' :: 'a' :: 'n' :: r => (payload? r).map (.nan negative true)
    | _ => (scaled? body).bind fun p => finite? negative p.1 p.2

/-- A character as a decimal reader sees it: digits of every script are those of ASCII. -/
def asciiForm (c : Char) : Char :=
  match Text.digitValue? c with
  | some d => Text.asciiDigit d
  | none => c

/-- Read a number. White space around it and underscores anywhere in it do not count. -/
def ofText? (s : String) : Option Decimal :=
  ofAscii? (((Text.trim Text.isBlank s.toList).filter (· != '_')).map asciiForm)

/-- The digits with a point before the last `n` of them. -/
def withPoint (ds : List Char) (n : Nat) : List Char :=
  if n = 0 then ds
  else if ds.length ≤ n then '0' :: '.' :: List.replicate (n - ds.length) '0' ++ ds
  else ds.take (ds.length - n) ++ '.' :: ds.drop (ds.length - n)

/-- The digits with a point after the first, if there are more. -/
def leading : List Char → List Char
  | [] => []
  | [d] => [d]
  | d :: rest => d :: '.' :: rest

/-- The text of a number. -/
def toChars : Decimal → List Char
  | .infinite negative => (if negative then ['-'] else []) ++ "Infinity".toList
  | .nan negative signaling payload =>
    (if negative then ['-'] else []) ++ (if signaling then ['s'] else []) ++ "NaN".toList ++
      (if payload = 0 then [] else Text.natDigits payload)
  | .finite negative coefficient exponent =>
    let ds := Text.natDigits coefficient
    let adjusted := exponent + ds.length - 1
    (if negative then ['-'] else []) ++
      if exponent ≤ 0 && -6 ≤ adjusted then withPoint ds (-exponent).toNat
      else
        let sign := if adjusted < 0 then '-' else '+'
        leading ds ++ 'E' :: sign :: Text.natDigits adjusted.natAbs

/-- The text of a number. -/
def toText (d : Decimal) : String := String.ofList d.toChars

/-- Is the number zero? -/
def isZero : Decimal → Bool
  | .finite _ c _ => c == 0
  | _ => false

end Decimal

end Listing
