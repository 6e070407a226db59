import Listing.Number.Binary64

/-!
# Comparing numbers exactly

`Exact` is a number `± coefficient · 10 ^ exponent`. Integers, finite binary numbers and finite
decimals all are such numbers, so `Exact.compare` compares any two of them without rounding. It
looks at the position of the first digits before it brings two numbers to one exponent.
-/

namespace Listing

/-- The number `± coefficient · 10 ^ exponent`. -/
structure Exact where
  negative : Bool
  coefficient : Nat
  exponent : Int
  deriving DecidableEq

namespace Exact

/-- An integer. -/
def ofInt (n : Int) : Exact := ⟨n < 0, n.natAbs, 0⟩

/-- The binary number `± m · 2 ^ e`. -/
def ofBinary (negative : Bool) (m : Nat) (e : Int) : Exact :=
  if 0 ≤ e then ⟨negative, m * Nat.pow 2 e.toNat, 0⟩ else ⟨negative, m * Nat.pow 5 (-e).toNat, e⟩

/-- Compare two positive numbers `a · 10 ^ i` and `b · 10 ^ j`. -/
def compareMagnitude (a : Nat) (i : Int) (b : Nat) (j : Int) : Ordering :=
  let first := Binary64.digitCount a + i
  let second := Binary64.digitCount b + j
  if first ≠ second then Ord.compare first second
  else if i ≤ j then Ord.compare a (b * Nat.pow 10 (j - i).toNat)
  else Ord.compare (a * Nat.pow 10 (i - j).toNat) b

/-- Compare two numbers. -/
def compare (x y : Exact) : Ordering :=
  match x.coefficient, y.coefficient with
  | 0, 0 => .eq
  | 0, _ => if y.negative then .gt else .lt
  | _, 0 => if x.negative then .lt else .gt
  | a, b =>
    match x.negative, y.negative with
    | true, false => .lt
    | false, true => .gt
    | false, false => compareMagnitude a x.exponent b y.exponent
    | true, true => compareMagnitude b y.exponent a x.exponent

/-- The integer part, toward zero. -/
def truncate (x : Exact) : Int :=
  let n := if 0 ≤ x.exponent then x.coefficient * Nat.pow 10 x.exponent.toNat
    else if Binary64.digitCount x.coefficient + x.exponent ≤ 0 then 0
    else x.coefficient / Nat.pow 10 (-x.exponent).toNat
  if x.negative then -n else n

/-- The least integer that is not below the number. -/
def ceiling (x : Exact) : Int :=
  let n := x.truncate
  if !x.negative && x.compare (ofInt n) == .gt then n + 1 else n

end Exact

end Listing
