import Listing.Number.Decimal

/-!
# Calculating with binary and decimal numbers

Sums, products and quotients are formed exactly and then rounded: those of binary numbers to the
nearest double-precision number, those of decimals to `Decimal.precision` digits, a tie going to the
even digit. A result of decimals that has no meaning, such as the sum of infinities of different
signs, is missing.
-/

namespace Listing

namespace Binary64

/-- The number nearest to `n · 2 ^ e`; the sign is for zero. -/
def ofDyadic (negativeZero : Bool) (n e : Int) : Binary64 :=
  if n = 0 then zero negativeZero
  else if 0 ≤ e then ofRatio (n < 0) (n.natAbs * Nat.pow 2 e.toNat) 1
  else ofRatio (n < 0) n.natAbs (Nat.pow 2 (-e).toNat)

/-- A number with a sign. -/
def signed (negative : Bool) (n : Nat) : Int := if negative then -n else n

/-- The number with the other sign. -/
def neg : Binary64 → Binary64
  | .finite s m e => .finite (!s) m e
  | .infinite s => .infinite (!s)
  | .nan => .nan

/-- The sum of two numbers. -/
def add : Binary64 → Binary64 → Binary64
  | .nan, _ | _, .nan => .nan
  | .infinite s, .infinite t => if s = t then .infinite s else .nan
  | .infinite s, _ | _, .infinite s => .infinite s
  | .finite s m e, .finite t n f =>
    let k := min e f
    ofDyadic (s && t)
      (signed s (m * Nat.pow 2 (e - k).toNat) + signed t (n * Nat.pow 2 (f - k).toNat)) k

/-- The product of two numbers. -/
def mul : Binary64 → Binary64 → Binary64
  | .nan, _ | _, .nan => .nan
  | .infinite s, .infinite t => .infinite (s != t)
  | .infinite s, .finite t n _ | .finite t n _, .infinite s =>
    if n = 0 then .nan else .infinite (s != t)
  | .finite s m e, .finite t n f => ofDyadic (s != t) (signed (s != t) (m * n)) (e + f)

/-- The quotient of two numbers, the second of which is not zero. -/
def div : Binary64 → Binary64 → Binary64
  | .nan, _ | _, .nan => .nan
  | .infinite _, .infinite _ => .nan
  | .infinite s, .finite t _ _ => .infinite (s != t)
  | .finite s _ _, .infinite t => zero (s != t)
  | .finite s m e, .finite t n f =>
    if f ≤ e then ofRatio (s != t) (m * Nat.pow 2 (e - f).toNat) n
    else ofRatio (s != t) m (n * Nat.pow 2 (f - e).toNat)

end Binary64

namespace Decimal

/-- How many digits a result keeps. -/
def precision : Nat := 28

/-- An integer. -/
def ofInt (n : Int) : Decimal := .finite (n < 0) n.natAbs 0

/-- The number with the other sign. -/
def neg : Decimal → Decimal
  | .finite s c e => .finite (!s) c e
  | .infinite s => .infinite (!s)
  | .nan s signaling payload => .nan s signaling payload

/-- The number with at most `precision` digits that is nearest to `± c · 10 ^ e`. -/
def rounded (negative : Bool) (c : Nat) (e : Int) : Decimal :=
  let surplus := Binary64.digitCount c - precision
  if surplus = 0 then .finite negative c e
  else
    let q := Binary64.roundHalfEven c (Nat.pow 10 surplus)
    if q = Nat.pow 10 precision then .finite negative (q / 10) (e + surplus + 1)
    else .finite negative q (e + surplus)

/-- The number `± c · 10 ^ e` with the exponent `target`, to which it is rounded. -/
def atExponent (negative : Bool) (c : Nat) (e target : Int) : Decimal :=
  if target ≤ e then rounded negative (c * Nat.pow 10 (e - target).toNat) target
  else rounded negative (Binary64.roundHalfEven c (Nat.pow 10 (target - e).toNat)) target

/-- The number with the smaller exponent, or, where it lies below every digit that a sum with the
other number keeps, the smallest number that has the same effect on it. -/
def clipped (tall : Nat × Int) (low : Nat × Int) : Nat × Int :=
  let least := tall.2 + min (-1) ((Binary64.digitCount tall.1 : Int) - precision - 2)
  if (Binary64.digitCount low.1 : Int) + low.2 - 1 < least then (1, least) else low

/-- The sum of two finite numbers that are not zero. -/
def addFinite (s : Bool) (x : Nat × Int) (t : Bool) (y : Nat × Int) : Decimal :=
  let (x', y') := if y.2 ≤ x.2 then (x, clipped x y) else (clipped y x, y)
  let k := min x'.2 y'.2
  let n := Binary64.signed s (x'.1 * Nat.pow 10 (x'.2 - k).toNat) +
    Binary64.signed t (y'.1 * Nat.pow 10 (y'.2 - k).toNat)
  if n = 0 then .finite false 0 (min x.2 y.2) else rounded (n < 0) n.natAbs k

/-- The sum of two numbers. -/
def add? : Decimal → Decimal → Option Decimal
  | .nan _ true _, _ | _, .nan _ true _ => none
  | .nan s signaling payload, _ | _, .nan s signaling payload => some (.nan s signaling payload)
  | .infinite s, .infinite t => if s = t then some (.infinite s) else none
  | .infinite s, _ | _, .infinite s => some (.infinite s)
  | .finite s 0 e, .finite t 0 f => some (.finite (s && t) 0 (min e f))
  | .finite _ 0 e, .finite t d f => some (atExponent t d f (max (min e f) (f - precision - 1)))
  | .finite s c e, .finite _ 0 f => some (atExponent s c e (max (min e f) (e - precision - 1)))
  | .finite s c e, .finite t d f => some (addFinite s (c, e) t (d, f))

/-- The product of two numbers. -/
def mul? : Decimal → Decimal → Option Decimal
  | .nan _ true _, _ | _, .nan _ true _ => none
  | .nan s signaling payload, _ | _, .nan s signaling payload => some (.nan s signaling payload)
  | .infinite s, .infinite t => some (.infinite (s != t))
  | .infinite s, .finite t d _ | .finite t d _, .infinite s =>
    if d = 0 then none else some (.infinite (s != t))
  | .finite s c e, .finite t d f => some (rounded (s != t) (c * d) (e + f))

/-- A quotient without the zeros at its end, as long as its exponent is below `ideal`. The first
number bounds the steps. -/
def withoutZeros : Nat → Nat → Int → Int → Nat × Int
  | 0, c, e, _ => (c, e)
  | fuel + 1, c, e, ideal =>
    if e < ideal && c % 10 = 0 then withoutZeros fuel (c / 10) (e + 1) ideal else (c, e)

/-- The quotient of two numbers, the second of which is not zero. -/
def div? : Decimal → Decimal → Option Decimal
  | .nan _ true _, _ | _, .nan _ true _ => none
  | .nan s signaling payload, _ | _, .nan s signaling payload => some (.nan s signaling payload)
  | .infinite _, .infinite _ => none
  | .infinite s, .finite t _ _ => some (.infinite (s != t))
  | .finite s _ _, .infinite t => some (.finite (s != t) 0 0)
  | .finite s c e, .finite t d f =>
    if d = 0 then none
    else if c = 0 then some (.finite (s != t) 0 (e - f))
    else
      let shift : Int := (Binary64.digitCount d : Int) - Binary64.digitCount c + precision + 1
      let num := c * Nat.pow 10 shift.toNat
      let den := d * Nat.pow 10 (-shift).toNat
      let exponent := e - f - shift
      if num % den = 0 then
        let (q, k) := withoutZeros (Binary64.digitCount (num / den)) (num / den) exponent (e - f)
        some (rounded (s != t) q k)
      else
        let q := num / den
        some (rounded (s != t) (if q % 5 = 0 then q + 1 else q) exponent)

end Decimal

end Listing
