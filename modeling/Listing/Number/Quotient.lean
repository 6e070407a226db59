import Listing.Number.Exact

/-!
# Quotients rounded to a binary number

`quotientCeiling?` divides two integers, rounds the quotient to the nearest double-precision number
and takes the least integer that is not below it. It has no value where the rounded quotient is
infinite.
-/

namespace Listing.Number

/-- The least integer not below a finite binary number. -/
def ceiling (negative : Bool) (m : Nat) (e : Int) : Int :=
  let d : Int := (Nat.pow 2 (-e).toNat : Nat)
  let n : Int := if 0 ≤ e then (m * Nat.pow 2 e.toNat : Nat) else m
  if 0 ≤ e then (if negative then -n else n)
  else if negative then -(n / d) else -((-n) / d)

/-- The least integer not below `a / b` rounded to a binary number, where `b` is not zero. -/
def quotientCeiling? (a b : Int) : Option Int :=
  match Binary64.ofRatio ((a < 0) != (b < 0)) a.natAbs b.natAbs with
  | .finite negative m e => some (ceiling negative m e)
  | _ => none

end Listing.Number
