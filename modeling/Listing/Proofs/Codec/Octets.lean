import Listing.Codec.Base64
import Listing.Codec.Percent
import Mathlib.Tactic.SplitIfs

/-!
# Octets and characters

What is written as octets is read back: `Utf8.decode_encode` for characters as octets, and
`Base64.decode?_encode` for octets as digits, with the padding that `Base64.encode` leaves out put
back. Digits are characters of ASCII that stand for themselves in a query string
(`Base64.isPlain_of_mem_encode`).
-/

namespace Listing

namespace Utf8

/-! ## Characters as octets -/

theorem toNat_ofNat (n : Nat) (h : n < 256) : (UInt8.ofNat n).toNat = n := by
  simp [Nat.mod_eq_of_lt h]

/-- The numbers of characters leave out those of surrogates. -/
theorem char_bounds (c : Char) : c.toNat < 0xd800 ∨ 0xdfff < c.toNat ∧ c.toNat < 0x110000 := by
  have h := c.valid
  simpa [UInt32.isValidChar, Nat.isValidChar] using h

theorem char_ofNat_eq {n : Nat} {c : Char} (h : n = c.toNat) : Char.ofNat n = c := by
  rw [h, Char.ofNat_toNat]

theorem decodeFrom_last {p : Begun} {o : UInt8} (hl : p.low ≤ o.toNat) (hh : o.toNat ≤ p.high)
    (hm : p.missing ≤ 1) (os : List UInt8) :
    decodeFrom (some p) (o :: os) =
      some (Char.ofNat (p.bits * 64 + (o.toNat - 0x80))) :: decodeFrom none os := by
  simp only [decodeFrom, hl, hh, decide_true, Bool.and_self, if_true, hm]

theorem decodeFrom_next {p : Begun} {o : UInt8} (hl : p.low ≤ o.toNat) (hh : o.toNat ≤ p.high)
    (hm : 1 < p.missing) (os : List UInt8) :
    decodeFrom (some p) (o :: os) =
      decodeFrom (some ⟨p.bits * 64 + (o.toNat - 0x80), p.missing - 1, 0x80, 0xbf⟩) os := by
  rw [decodeFrom]
  simp only [hl, hh, decide_true, Bool.and_self, if_true, if_neg (Nat.not_le.2 hm)]

theorem opening_two {v : Nat} (h₁ : 0x80 ≤ v) (h₂ : v < 0x800) :
    opening (v / 64 + 0xc0) = .begun ⟨v / 64, 1, 0x80, 0xbf⟩ := by
  rw [opening, if_neg (by omega),
    if_pos (by simp only [Bool.and_eq_true, decide_eq_true_eq]; omega), Nat.add_sub_cancel]

/-- The first of three octets, and the range that it leaves for the second one. -/
theorem opening_three {v : Nat} (h₁ : 0x800 ≤ v) (h₂ : v < 0x10000)
    (h : v < 0xd800 ∨ 0xdfff < v) :
    ∃ low high, opening (v / 4096 + 0xe0) = .begun ⟨v / 4096, 2, low, high⟩ ∧
      low ≤ v / 64 % 64 + 0x80 ∧ v / 64 % 64 + 0x80 ≤ high := by
  rw [opening, if_neg (by omega),
    if_neg (by simp only [Bool.and_eq_true, decide_eq_true_eq]; omega)]
  by_cases h0 : v / 4096 = 0
  · exact ⟨0xa0, 0xbf, by rw [if_pos (by omega), h0], by omega, by omega⟩
  by_cases hd : v / 4096 = 0xd
  · exact ⟨0x80, 0x9f, by rw [if_neg (by omega), if_pos (by omega), hd], by omega, by omega⟩
  refine ⟨0x80, 0xbf, ?_, by omega, by omega⟩
  rw [if_neg (by omega), if_neg (by omega),
    if_pos (by simp only [Bool.and_eq_true, decide_eq_true_eq]; omega), Nat.add_sub_cancel]

/-- The first of four octets, and the range that it leaves for the second one. -/
theorem opening_four {v : Nat} (h₁ : 0x10000 ≤ v) (h₂ : v < 0x110000) :
    ∃ low high, opening (v / 262144 + 0xf0) = .begun ⟨v / 262144, 3, low, high⟩ ∧
      low ≤ v / 4096 % 64 + 0x80 ∧ v / 4096 % 64 + 0x80 ≤ high := by
  rw [opening, if_neg (by omega),
    if_neg (by simp only [Bool.and_eq_true, decide_eq_true_eq]; omega), if_neg (by omega),
    if_neg (by omega), if_neg (by simp only [Bool.and_eq_true, decide_eq_true_eq]; omega)]
  by_cases h0 : v / 262144 = 0
  · exact ⟨0x90, 0xbf, by rw [if_pos (by omega), h0], by omega, by omega⟩
  by_cases h4 : v / 262144 = 4
  · refine ⟨0x80, 0x8f, ?_, by omega, by omega⟩
    rw [if_neg (by omega), if_neg (by simp only [Bool.and_eq_true, decide_eq_true_eq]; omega),
      if_pos (by omega), h4]
  refine ⟨0x80, 0xbf, ?_, by omega, by omega⟩
  rw [if_neg (by omega), if_pos (by simp only [Bool.and_eq_true, decide_eq_true_eq]; omega),
    Nat.add_sub_cancel]

/-- **The octets of a character are read as that character**, whatever comes after them. -/
theorem decodeFrom_utf8EncodeChar (c : Char) (rest : List UInt8) :
    decodeFrom none (String.utf8EncodeChar c ++ rest) = some c :: decodeFrom none rest := by
  have hc := char_bounds c
  have hv : c.val.toNat = c.toNat := rfl
  unfold String.utf8EncodeChar
  simp only [hv]
  -- one case for each number of octets
  split_ifs with h₁ h₂ h₃ <;> simp only [List.cons_append, List.nil_append]
  · rw [decodeFrom, toNat_ofNat _ (by omega), opening, if_pos (by omega)]
    simp only [Char.ofNat_toNat]
  · have e₁ := toNat_ofNat (c.toNat % 64 + 0x80) (by omega)
    rw [decodeFrom, toNat_ofNat _ (by omega), Nat.mod_eq_of_lt (b := 0x20) (by omega),
      opening_two (by omega) (by omega)]
    dsimp only
    rw [decodeFrom_last (by dsimp only; omega) (by dsimp only; omega) Nat.le.refl, e₁,
      char_ofNat_eq (c := c) (by dsimp only; omega)]
  · have e₁ := toNat_ofNat (c.toNat / 64 % 64 + 0x80) (by omega)
    have e₂ := toNat_ofNat (c.toNat % 64 + 0x80) (by omega)
    obtain ⟨low, high, ho, hl, hh⟩ := opening_three (v := c.toNat) (by omega) (by omega) (by omega)
    rw [decodeFrom, toNat_ofNat _ (by omega), Nat.mod_eq_of_lt (b := 0x10) (by omega), ho]
    dsimp only
    rw [decodeFrom_next (by dsimp only; omega) (by dsimp only; omega) (by dsimp only; omega),
      decodeFrom_last (by dsimp only; omega) (by dsimp only; omega) Nat.le.refl, e₁, e₂,
      char_ofNat_eq (c := c) (by dsimp only; omega)]
  · have e₁ := toNat_ofNat (c.toNat / 4096 % 64 + 0x80) (by omega)
    have e₂ := toNat_ofNat (c.toNat / 64 % 64 + 0x80) (by omega)
    have e₃ := toNat_ofNat (c.toNat % 64 + 0x80) (by omega)
    obtain ⟨low, high, ho, hl, hh⟩ := opening_four (v := c.toNat) (by omega) (by omega)
    rw [decodeFrom, toNat_ofNat _ (by omega), Nat.mod_eq_of_lt (b := 0x08) (by omega), ho]
    dsimp only
    rw [decodeFrom_next (by dsimp only; omega) (by dsimp only; omega) (by dsimp only; omega),
      decodeFrom_next (by dsimp only; omega) (by dsimp only; omega) (by dsimp only; omega),
      decodeFrom_last (by dsimp only; omega) (by dsimp only; omega) Nat.le.refl, e₁, e₂, e₃,
      char_ofNat_eq (c := c) (by dsimp only; omega)]

theorem decode_encode (cs : List Char) : decode (encode cs) = cs.map some := by
  unfold decode encode
  induction cs with
  | nil => rfl
  | cons c cs ih =>
    rw [List.flatMap_cons, decodeFrom_utf8EncodeChar, ih, List.map_cons]

theorem decodeLossy_encode (cs : List Char) : decodeLossy (encode cs) = cs := by
  rw [decodeLossy, decode_encode, List.map_map]
  exact List.map_id cs

theorem decode?_encode (cs : List Char) : decode? (encode cs) = some cs := by
  rw [decode?, decode_encode]
  induction cs with
  | nil => rfl
  | cons c cs ih => simp [List.mapM_cons, ih]

end Utf8

namespace Base64

/-! ## Octets as digits -/

theorem value?_digit {n : Nat} (h : n < 64) : value? (digit n) = some n := by
  have all : ∀ k : Fin 64, value? (digit k) = some k.val := by decide +kernel
  exact all ⟨n, h⟩

theorem digit_ne_pad {n : Nat} (h : n < 64) : digit n ≠ '=' := by
  have all : ∀ k : Fin 64, digit k ≠ '=' := by decide +kernel
  exact all ⟨n, h⟩

theorem isPlain_digit {n : Nat} (h : n < 64) : Percent.isPlain (digit n) = true := by
  have all : ∀ k : Fin 64, Percent.isPlain (digit k) = true := by decide +kernel
  exact all ⟨n, h⟩

/-- The first digit of four. -/
theorem decodeFrom_first {n : Nat} (h : n < 64) (cs : List Char) (bits pads : Nat) :
    decodeFrom ⟨0, bits, pads⟩ (digit n :: cs) = decodeFrom ⟨1, n, 0⟩ cs := by
  rw [decodeFrom, if_neg (digit_ne_pad h), value?_digit h]
  rfl

/-- The second digit of four. -/
theorem decodeFrom_second {n : Nat} (h : n < 64) (cs : List Char) (bits pads : Nat) :
    decodeFrom ⟨1, bits, pads⟩ (digit n :: cs) =
      (decodeFrom ⟨2, n % 16, 0⟩ cs).map (UInt8.ofNat (bits * 4 + n / 16) :: ·) := by
  rw [decodeFrom, if_neg (digit_ne_pad h), value?_digit h]
  rfl

/-- The third digit of four. -/
theorem decodeFrom_third {n : Nat} (h : n < 64) (cs : List Char) (bits pads : Nat) :
    decodeFrom ⟨2, bits, pads⟩ (digit n :: cs) =
      (decodeFrom ⟨3, n % 4, 0⟩ cs).map (UInt8.ofNat (bits * 16 + n / 4) :: ·) := by
  rw [decodeFrom, if_neg (digit_ne_pad h), value?_digit h]
  rfl

/-- The last digit of four. -/
theorem decodeFrom_fourth {n : Nat} (h : n < 64) (cs : List Char) (bits pads : Nat) :
    decodeFrom ⟨3, bits, pads⟩ (digit n :: cs) =
      (decodeFrom ⟨0, 0, 0⟩ cs).map (UInt8.ofNat (bits * 64 + n) :: ·) := by
  rw [decodeFrom, if_neg (digit_ne_pad h), value?_digit h]
  rfl

theorem ofNat_eq {n : Nat} {a : UInt8} (h : n = a.toNat) : UInt8.ofNat n = a := by
  rw [h, UInt8.ofNat_toNat]

/-- The padding that is left out after so many digits. -/
def padding (n : Nat) : List Char := List.replicate ((4 - n % 4) % 4) '='

theorem decodeFrom_encode (os : List UInt8) :
    decodeFrom ⟨0, 0, 0⟩ (encode os ++ padding (encode os).length) = some os := by
  -- three octets at a time
  induction os using encode.induct with
  | case1 => rfl
  | case2 a =>
    have ha := a.toNat_lt
    simp only [encode, List.cons_append, List.nil_append]
    rw [decodeFrom_first (by omega), decodeFrom_second (by omega), ofNat_eq (a := a) (by omega)]
    rfl
  | case3 a b =>
    have ha := a.toNat_lt
    have hb := b.toNat_lt
    simp only [encode, List.cons_append, List.nil_append]
    rw [decodeFrom_first (by omega), decodeFrom_second (by omega), decodeFrom_third (by omega),
      ofNat_eq (a := a) (by omega), ofNat_eq (a := b) (by omega)]
    rfl
  | case4 a b c rest ih =>
    have ha := a.toNat_lt
    have hb := b.toNat_lt
    have hc := c.toNat_lt
    have hp : padding (encode (a :: b :: c :: rest)).length = padding (encode rest).length := by
      simp only [padding, encode, List.length_cons, Nat.add_assoc, Nat.reduceAdd,
        Nat.add_mod_right]
    rw [hp]
    simp only [encode, List.cons_append]
    rw [decodeFrom_first (by omega), decodeFrom_second (by omega), decodeFrom_third (by omega),
      decodeFrom_fourth (by omega), ih]
    rw [ofNat_eq (a := a) (by omega), ofNat_eq (a := b) (by omega), ofNat_eq (a := c) (by omega)]
    rfl

theorem decode?_encode (os : List UInt8) :
    decode? (encode os ++ padding (encode os).length) = some os :=
  decodeFrom_encode os

/-- Octets are written as nothing but digits. -/
theorem exists_digit_of_mem_encode {os : List UInt8} {c : Char} (hc : c ∈ encode os) :
    ∃ n < 64, c = digit n := by
  induction os using encode.induct with
  | case1 => cases hc
  | case2 a =>
    have ha := a.toNat_lt
    simp only [encode, List.mem_cons, List.not_mem_nil, or_false] at hc
    obtain rfl | rfl := hc <;> exact ⟨_, by omega, rfl⟩
  | case3 a b =>
    have ha := a.toNat_lt
    have hb := b.toNat_lt
    simp only [encode, List.mem_cons, List.not_mem_nil, or_false] at hc
    obtain rfl | rfl | rfl := hc <;> exact ⟨_, by omega, rfl⟩
  | case4 a b d rest ih =>
    have ha := a.toNat_lt
    have hb := b.toNat_lt
    have hd := d.toNat_lt
    simp only [encode, List.mem_cons] at hc
    obtain rfl | rfl | rfl | rfl | hc := hc
    · exact ⟨_, by omega, rfl⟩
    · exact ⟨_, by omega, rfl⟩
    · exact ⟨_, by omega, rfl⟩
    · exact ⟨_, by omega, rfl⟩
    · exact ih hc

theorem isPlain_of_mem_encode {os : List UInt8} {c : Char} (hc : c ∈ encode os) :
    Percent.isPlain c = true := by
  obtain ⟨n, hn, rfl⟩ := exists_digit_of_mem_encode hc
  exact isPlain_digit hn

theorem encode_ne_nil {os : List UInt8} (h : os ≠ []) : encode os ≠ [] := by
  match os, h with
  | [_], _ => exact List.cons_ne_nil _ _
  | [_, _], _ => exact List.cons_ne_nil _ _
  | _ :: _ :: _ :: _, _ => exact List.cons_ne_nil _ _

end Base64

end Listing
