import Listing.Proofs.Number.Exact
import Listing.Proofs.Number.Spelling
import Listing.Number.Reader

/-!
# Numbers written plainly

A number is written plainly with a sign or none, digits, and a point with more digits or none: `Plain`.
What it denotes is a rational number, `Plain.value`. A reader of decimals finds that number in the text
(`Plain.ofText?_text`, `Plain.value_eq`), and a reader of integers does if there is no point in it
(`Plain.readInteger?_text`).
-/

namespace Listing

/-- Digits in front of others count by how many these are. -/
theorem Decimal.digitsValue_append (ds es : List Char) :
    digitsValue (ds ++ es) = 10 ^ es.length * digitsValue ds + digitsValue es :=
  (Nat.ofDigitChars_append 0).trans Nat.ofDigitChars_eq_ofDigitChars_zero

/-- A number has no more digits than it is written with. -/
theorem Binary64.digitCount_digitsValue_le {ds : List Char}
    (h : ∀ c ∈ ds, Text.isAsciiDigit c = true) : digitCount (Decimal.digitsValue ds) ≤ ds.length := by
  unfold digitCount
  split
  · exact Nat.zero_le _
  · next hne =>
    have hlt := Number.digitsValue_lt (List.all_eq_true.2 h)
    have hpos : 0 < ds.length := by
      rw [List.length_pos_iff]
      rintro rfl
      exact hne rfl
    exact (Nat.length_toDigits_le_iff (by decide) hpos).2 hlt

/-- A number written with a sign or none, digits, and a point with more digits or none. -/
structure Plain where
  /-- Is the sign a minus, if there is one? -/
  sign : Option Bool
  whole : List Char
  /-- The digits after the point. -/
  fraction : Option (List Char)
  whole_ne_nil : whole ≠ []
  whole_digits : ∀ c ∈ whole, Text.isAsciiDigit c = true
  fraction_digits : ∀ ds ∈ fraction, ∀ c ∈ ds, Text.isAsciiDigit c = true

namespace Plain

/-- The point and the digits around it. -/
def unsigned (p : Plain) : List Char :=
  p.whole ++ match p.fraction with
    | none => []
    | some ds => '.' :: ds

/-- The number character by character. -/
def chars (p : Plain) : List Char :=
  match p.sign with
  | none => p.unsigned
  | some negative => (if negative then '-' else '+') :: p.unsigned

/-- The text that is written. -/
def text (p : Plain) : String := String.ofList p.chars

/-- Is the number written with a minus? -/
def negative (p : Plain) : Bool := p.sign.getD false

/-- The digits after the point, none without a point. -/
def places (p : Plain) : List Char := p.fraction.getD []

/-- The number that is written. -/
def value (p : Plain) : ℚ :=
  (if p.negative then -1 else 1) *
    (Decimal.digitsValue p.whole + Decimal.digitsValue p.places / 10 ^ p.places.length)

/-- All digits as one number. -/
def coefficient (p : Plain) : Nat := Decimal.digitsValue (p.whole ++ p.places)

/-- The exponent that goes with all digits. -/
def exponent (p : Plain) : Int := -(p.places.length : Int)

/-- The integer in front of the point. -/
def integer (p : Plain) : Int :=
  if p.negative then -(Decimal.digitsValue p.whole : Int) else Decimal.digitsValue p.whole

variable (p : Plain)

theorem places_digits : ∀ c ∈ p.places, Text.isAsciiDigit c = true := by
  unfold places
  cases hf : p.fraction with
  | none => nofun
  | some ds => exact p.fraction_digits ds hf

/-- **The digits and their exponent say what is written.** -/
theorem value_eq : p.value = (Exact.mk p.negative p.coefficient p.exponent).value := by
  have hpow : (10 : ℚ) ^ p.places.length ≠ 0 := pow_ne_zero _ (by norm_num)
  unfold Exact.value value coefficient exponent
  rw [Decimal.digitsValue_append, Nat.cast_add, Nat.cast_mul, Nat.cast_pow, Nat.cast_ofNat, zpow_neg,
    zpow_natCast, ← div_eq_mul_inv, add_div, mul_div_cancel_left₀ _ hpow]

/-- Without a point an integer is written. -/
theorem value_of_whole (h : p.fraction = none) : p.value = p.integer := by
  unfold value places integer
  rw [h]
  cases p.negative <;> simp [Decimal.digitsValue]

/-! ## Characters -/

/-- A digit is the first that is written after the sign. -/
theorem exists_unsigned : ∃ d ds, p.unsigned = d :: ds ∧ Text.isAsciiDigit d = true := by
  obtain ⟨d, ds, hwhole⟩ := List.exists_cons_of_ne_nil p.whole_ne_nil
  exact ⟨d, _, by rw [unsigned, hwhole, List.cons_append],
    p.whole_digits d (hwhole ▸ List.mem_cons_self ..)⟩

theorem isMark_of_mem_unsigned {c : Char} (h : c ∈ p.unsigned) : Decimal.IsMark c := by
  rcases List.mem_append.1 h with h | h
  · exact .inl (p.whole_digits c h)
  · cases hf : p.fraction with
    | none =>
      rw [hf] at h
      cases h
    | some ds =>
      rw [hf] at h
      exact Decimal.isMark_cons Decimal.isMark_point
        (fun c hc => .inl (p.fraction_digits ds hf c hc)) c h

theorem isMark_of_mem_chars {c : Char} (h : c ∈ p.chars) : Decimal.IsMark c := by
  unfold chars at h
  split at h
  · exact p.isMark_of_mem_unsigned h
  · refine Decimal.isMark_cons ?_ (fun c hc => p.isMark_of_mem_unsigned hc) c h
    split <;> exact .inr (by decide +kernel)

theorem splitSign_chars : Decimal.splitSign p.chars = (p.negative, p.unsigned) := by
  obtain ⟨d, ds, hunsigned, hd⟩ := p.exists_unsigned
  unfold chars negative
  cases p.sign with
  | none =>
    rw [hunsigned]
    exact Decimal.splitSign_digit hd ds
  | some negative => cases negative <;> rfl

/-- A reader of numbers leaves all characters as they are. -/
theorem body_text : Number.body p.text = p.chars := by
  have hpadding : ∀ c ∈ p.chars, Number.isPadding c = false := fun c hc =>
    Number.not_isPadding_of_not_isBlank (p.isMark_of_mem_chars hc).isOwn.1
  rw [Number.body, text, String.toList_ofList, Text.trim_eq_self hpadding,
    List.map_congr_left fun c hc => (p.isMark_of_mem_chars hc).isOwn.2.2]
  exact List.map_id _

/-! ## Reading -/

/-- The digits and the exponent are found. -/
theorem scaled?_unsigned : Decimal.scaled? p.unsigned = some (p.coefficient, p.exponent) := by
  have hnone : Decimal.exponent? [] = some 0 := rfl
  unfold unsigned coefficient exponent places
  cases hf : p.fraction with
  | none =>
    rw [Decimal.scaled?_whole p.whole_digits p.whole_ne_nil Text.endsDigits_nil (by simp) hnone]
    simp
  | some ds =>
    have hpoint := Decimal.scaled?_point p.whole_digits p.whole_ne_nil (p.fraction_digits ds hf)
      Text.endsDigits_nil hnone
    rw [List.append_nil, Int.zero_sub] at hpoint
    exact hpoint

theorem length_digits_le : (p.whole ++ p.places).length ≤ p.text.length := by
  have hsign : p.unsigned.length ≤ p.chars.length := by
    unfold chars
    split
    · exact Nat.le_refl _
    · exact Nat.le_succ _
  rw [← String.length_toList, text, String.toList_ofList]
  refine Nat.le_trans ?_ hsign
  unfold unsigned places
  cases p.fraction <;> simp

/-- Few digits are within the limits of decimals. -/
theorem finite?_eq (h : p.text.length ≤ Number.maxDigits) :
    Decimal.finite? p.negative p.coefficient p.exponent =
      some (.finite p.negative p.coefficient p.exponent) := by
  have hdigits : ∀ c ∈ p.whole ++ p.places, Text.isAsciiDigit c = true := fun c hc =>
    (List.mem_append.1 hc).elim (p.whole_digits c) (p.places_digits c)
  have hcount := Binary64.digitCount_digitsValue_le hdigits
  have hlength := p.length_digits_le
  have hplaces : p.places.length ≤ (p.whole ++ p.places).length := by simp
  have hmax : Number.maxDigits = 4300 := rfl
  unfold Decimal.finite? coefficient exponent Decimal.maxAdjusted Decimal.minExponent
  rw [if_neg]
  simp only [Bool.or_eq_true, decide_eq_true_eq, not_or]
  omega

/-- **A reader of decimals finds the digits that are written.** -/
theorem ofText?_text (h : p.text.length ≤ Number.maxDigits) :
    Decimal.ofText? p.text = some (.finite p.negative p.coefficient p.exponent) := by
  obtain ⟨d, ds, hunsigned, hd⟩ := p.exists_unsigned
  rw [text, Decimal.ofText?_of_isOwn fun c hc => (p.isMark_of_mem_chars hc).isOwn,
    Decimal.ofAscii?_of_splitSign hd (p.splitSign_chars.trans (by rw [hunsigned])), ← hunsigned,
    p.scaled?_unsigned]
  exact p.finite?_eq h

/-- **A reader of integers finds what is written if there is no point**, and nothing otherwise. -/
theorem readInteger?_text (h : p.text.length ≤ Number.maxDigits) :
    Number.readInteger? p.text = if p.fraction.isSome then none else some p.integer := by
  have hunderscore : '_' ∉ p.unsigned := fun hc => by
    rcases p.isMark_of_mem_unsigned hc with hc | hc
    · cases hc
    · exact absurd hc (by decide +kernel)
  rw [Number.readInteger?, p.body_text, p.splitSign_chars]
  dsimp only
  rw [Number.dropUnderscores?_of_not_mem hunderscore, Option.bind_some]
  have hlength := p.length_digits_le
  cases hf : p.fraction with
  | none =>
    have hwhole : p.unsigned = p.whole := by rw [unsigned, hf, List.append_nil]
    have hall : p.whole.all Text.isAsciiDigit = true := List.all_eq_true.2 p.whole_digits
    have hfew : ¬ Number.maxDigits < p.whole.length := by
      rw [List.length_append] at hlength
      omega
    rw [hwhole, List.isEmpty_eq_false_iff.2 p.whole_ne_nil, hall, decide_eq_false hfew]
    rfl
  | some ds =>
    have hpoint : p.unsigned.all Text.isAsciiDigit = false := by
      rw [unsigned, hf, List.all_append, List.all_cons]
      exact Bool.and_false _
    rw [hpoint, Bool.not_false, Bool.or_true, Bool.true_or]
    rfl

end Plain

end Listing
