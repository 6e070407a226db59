/-!
# UTF-8

`encode` writes characters as octets. `decode` reads octets and answers `none` for each longest run
of octets that begins a character and is cut off, and for each octet that begins none; `decode?`
reads octets without such places, and `decodeLossy` puts a replacement character there.
-/

namespace Listing.Utf8

/-- The octets of characters. -/
def encode (cs : List Char) : List UInt8 := cs.flatMap String.utf8EncodeChar

/-- A character of which octets are still missing: the bits read so far, the number of octets that
are missing, and the range of the next one. -/
structure Begun where
  bits : Nat
  missing : Nat
  low : Nat
  high : Nat

/-- What a first octet begins. -/
inductive Opening
  | char (c : Char)
  | begun (p : Begun)
  | nothing

/-- Read a first octet. The range of the second one leaves out longer spellings of a character,
surrogates, and numbers past the last character. -/
def opening (o : Nat) : Opening :=
  if o < 0x80 then .char (Char.ofNat o)
  else if 0xc2 ≤ o && o ≤ 0xdf then .begun ⟨o - 0xc0, 1, 0x80, 0xbf⟩
  else if o = 0xe0 then .begun ⟨0, 2, 0xa0, 0xbf⟩
  else if o = 0xed then .begun ⟨0xd, 2, 0x80, 0x9f⟩
  else if 0xe1 ≤ o && o ≤ 0xef then .begun ⟨o - 0xe0, 2, 0x80, 0xbf⟩
  else if o = 0xf0 then .begun ⟨0, 3, 0x90, 0xbf⟩
  else if 0xf1 ≤ o && o ≤ 0xf3 then .begun ⟨o - 0xf0, 3, 0x80, 0xbf⟩
  else if o = 0xf4 then .begun ⟨4, 3, 0x80, 0x8f⟩
  else .nothing

/-- Read octets, with a character begun or none. -/
def decodeFrom : Option Begun → List UInt8 → List (Option Char)
  | none, [] => []
  | some _, [] => [none]
  | none, o :: os =>
    match opening o.toNat with
    | .char c => some c :: decodeFrom none os
    | .begun p => decodeFrom (some p) os
    | .nothing => none :: decodeFrom none os
  | some p, o :: os =>
    if p.low ≤ o.toNat && o.toNat ≤ p.high then
      let bits := p.bits * 64 + (o.toNat - 0x80)
      if p.missing ≤ 1 then some (Char.ofNat bits) :: decodeFrom none os
      else decodeFrom (some ⟨bits, p.missing - 1, 0x80, 0xbf⟩) os
    else
      none :: match opening o.toNat with
        | .char c => some c :: decodeFrom none os
        | .begun q => decodeFrom (some q) os
        | .nothing => none :: decodeFrom none os

/-- Read octets. -/
def decode (os : List UInt8) : List (Option Char) := decodeFrom none os

/-- The characters, if all octets belong to one. -/
def decode? (os : List UInt8) : Option (List Char) := (decode os).mapM id

/-- The characters, with a replacement character where octets belong to none. -/
def decodeLossy (os : List UInt8) : List Char := (decode os).map (·.getD '\ufffd')

end Listing.Utf8
