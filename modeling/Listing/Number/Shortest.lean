import Listing.Number.Binary64

/-!
# The shortest decimal that reads back

`Binary64.shortest` finds, for a positive finite number, the fewest decimal digits that name it
among all double-precision numbers, and among those the nearest ones. A decimal grid with one more
digit is tried after the other; on each, only the two neighbours of the number can lie in the
interval of reals that round to it.

`Binary64.toText` is the text of a number: positional for decimal exponents from `-4` to `15`,
with an exponent of at least two digits outside.
-/

namespace Listing.Binary64

/-- The reals that round to `m · 2 ^ e` are those between `low / den` and `high / den`, the ends
included iff `m` is even; `value / den` is the number itself. -/
structure Interval where
  low : Nat
  value : Nat
  high : Nat
  den : Nat
  closed : Bool

/-- The interval of reals that round to the positive number `m · 2 ^ e`. -/
def interval (m : Nat) (e : Int) : Interval :=
  -- below a power of two the next smaller number is half as far away
  let below := if m = Nat.pow 2 52 && minExponent < e then 1 else 2
  let up := if 0 ≤ e then Nat.pow 2 e.toNat else 1
  let den := if 0 ≤ e then 1 else Nat.pow 2 (-e).toNat
  { low := (4 * m - below) * up, value := 4 * m * up, high := (4 * m + 2) * up,
    den := 4 * den, closed := m % 2 == 0 }

/-- Does `num / den` lie in the interval? -/
def Interval.holds (i : Interval) (num den : Nat) : Bool :=
  if i.closed then i.low * den ≤ num * i.den && num * i.den ≤ i.high * den
  else i.low * den < num * i.den && num * i.den < i.high * den

/-- The decimal exponent `p` with `10 ^ p ≤ num / den < 10 ^ (p + 1)`. -/
def decimalExponent (num den : Nat) : Int :=
  if den ≤ num then (digitCount (num / den) : Int) - 1
  else
    let j := digitCount (den / num) - 1
    if den ≤ num * Nat.pow 10 j then -(j : Int) else -(j + 1 : Int)

/-- `d · 10 ^ k` as a quotient. -/
def gridPoint (d : Nat) (k : Int) : Nat × Nat :=
  if 0 ≤ k then (d * Nat.pow 10 k.toNat, 1) else (d, Nat.pow 10 (-k).toNat)

/-- The point of the grid of multiples of `10 ^ k` in the interval that is nearest to its number,
if there is one; a tie goes to the even point. -/
def onGrid (i : Interval) (k : Int) : Option Nat :=
  let unit := gridPoint 1 k
  let d := i.value * unit.2 / (i.den * unit.1)
  let inside := fun n => let p := gridPoint n k; i.holds p.1 p.2
  -- twice the distance from the lower neighbour, against the width of the grid
  let twice := 2 * (i.value * unit.2 - d * (i.den * unit.1))
  let width := i.den * unit.1
  match inside d, inside (d + 1) with
  | false, false => none
  | true, false => some d
  | false, true => some (d + 1)
  | true, true =>
    if twice < width || (twice == width && d % 2 == 0) then some d else some (d + 1)

/-- The first grid with a hit, from `n` digits on, `fuel` grids at most. -/
def firstHit (i : Interval) (p : Int) : Nat → Nat → Option (Nat × Int)
  | 0, _ => none
  | fuel + 1, n =>
    match onGrid i (p - n) with
    | some d => some (d, p - n)
    | none => firstHit i p fuel (n + 1)

/-- Drop trailing zeros, counting them in the exponent. -/
def dropZeros : Nat → Nat → Int → Nat × Int
  | 0, d, k => (d, k)
  | fuel + 1, d, k => if d ≠ 0 && d % 10 = 0 then dropZeros fuel (d / 10) (k + 1) else (d, k)

/-- Digits `d` and exponent `k` of the shortest decimal `d · 10 ^ k` that names the positive number
`m · 2 ^ e`. -/
def shortest (m : Nat) (e : Int) : Nat × Int :=
  let i := interval m e
  let p := decimalExponent i.value i.den
  let hit := (firstHit i p 18 0).getD (i.value / i.den, 0)
  dropZeros 20 hit.1 hit.2

/-- An integer with its sign, `+` included, and at least two digits. -/
def exponentText (n : Int) : List Char :=
  let ds := Nat.toDigits 10 n.natAbs
  (if n < 0 then '-' else '+') :: (if ds.length < 2 then '0' :: ds else ds)

/-- The text of the digits `ds` of which the first stands for multiples of `10 ^ p`. -/
def layout (ds : List Char) (p : Int) : List Char :=
  if p < -4 || 16 ≤ p then
    match ds with
    | [] => []
    | [d] => d :: 'e' :: exponentText p
    | d :: rest => d :: '.' :: rest ++ 'e' :: exponentText p
  else if p < 0 then '0' :: '.' :: List.replicate (-p - 1).toNat '0' ++ ds
  else
    let whole := p.toNat + 1
    if ds.length ≤ whole then ds ++ List.replicate (whole - ds.length) '0' ++ ['.', '0']
    else ds.take whole ++ '.' :: ds.drop whole

/-- The text of a number. -/
def toChars : Binary64 → List Char
  | .nan => ['n', 'a', 'n']
  | .infinite negative => (if negative then ['-'] else []) ++ ['i', 'n', 'f']
  | .finite negative m e =>
    (if negative then ['-'] else []) ++
      if m = 0 then ['0', '.', '0']
      else
        let (d, k) := shortest m e
        let ds := Nat.toDigits 10 d
        layout ds (k + ds.length - 1)

/-- The text of a number. -/
def toText (x : Binary64) : String := String.ofList x.toChars

end Listing.Binary64
