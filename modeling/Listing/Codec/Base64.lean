/-!
# Base 64

`encode` writes octets with the alphabet that is safe in links, without padding. `decode?` reads the
alphabets with `-` and `_` and with `+` and `/`, passes over other characters, and ends at a
complete padding.
-/

namespace Listing.Base64

/-- The digits. -/
def alphabet : List Char :=
  "ABCDEFGHIJKLMNOPQRSTUVWXYZabcdefghijklmnopqrstuvwxyz0123456789-_".toList

/-- The digit for a number below 64. -/
def digit (n : Nat) : Char := alphabet.getD n 'A'

/-- The value of a digit of either alphabet. -/
def value? (c : Char) : Option Nat :=
  if 'A' ≤ c && c ≤ 'Z' then some (c.toNat - 65)
  else if 'a' ≤ c && c ≤ 'z' then some (c.toNat - 71)
  else if '0' ≤ c && c ≤ '9' then some (c.toNat + 4)
  else if c = '-' || c = '+' then some 62
  else if c = '_' || c = '/' then some 63
  else none

/-- The digits of octets, three octets giving four digits. -/
def encode : List UInt8 → List Char
  | [] => []
  | [a] => [digit (a.toNat / 4), digit (a.toNat % 4 * 16)]
  | [a, b] =>
    [digit (a.toNat / 4), digit (a.toNat % 4 * 16 + b.toNat / 16), digit (b.toNat % 16 * 4)]
  | a :: b :: c :: rest =>
    digit (a.toNat / 4) :: digit (a.toNat % 4 * 16 + b.toNat / 16) ::
      digit (b.toNat % 16 * 4 + c.toNat / 64) :: digit (c.toNat % 64) :: encode rest

/-- How far the reading of four digits has come: their number, the bits left over, and the marks of
padding since the last digit. -/
structure Quad where
  digits : Nat
  bits : Nat
  pads : Nat

/-- Read digits and padding. -/
def decodeFrom : Quad → List Char → Option (List UInt8)
  | q, [] => if q.digits = 0 then some [] else none
  | q, c :: cs =>
    if c = '=' then
      if 2 ≤ q.digits && 4 ≤ q.digits + (q.pads + 1) then some []
      else decodeFrom { q with pads := if 2 ≤ q.digits then q.pads + 1 else q.pads } cs
    else
      match value? c with
      | none => decodeFrom q cs
      | some n =>
        if q.digits = 0 then decodeFrom ⟨1, n, 0⟩ cs
        else if q.digits = 1 then
          (decodeFrom ⟨2, n % 16, 0⟩ cs).map (UInt8.ofNat (q.bits * 4 + n / 16) :: ·)
        else if q.digits = 2 then
          (decodeFrom ⟨3, n % 4, 0⟩ cs).map (UInt8.ofNat (q.bits * 16 + n / 4) :: ·)
        else (decodeFrom ⟨0, 0, 0⟩ cs).map (UInt8.ofNat (q.bits * 64 + n) :: ·)

/-- Read a text of digits. -/
def decode? (cs : List Char) : Option (List UInt8) := decodeFrom ⟨0, 0, 0⟩ cs

end Listing.Base64
