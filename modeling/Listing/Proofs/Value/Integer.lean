import Listing.Proofs.Number.Digits
import Listing.Value.Kind

/-!
# Integers in requests

A request writes an integer as itself or in the ten digits (`Value.Writes`). A text of more digits than
are read as a number counts as an integer too, and then has no value: `Value.Overlong`.
-/

namespace Listing

/-- The ten digits are read as the number that they write, as long as they are not too many. -/
theorem Number.readInteger?_of_digits {s : String} (hne : s.toList ≠ [])
    (hdigits : ∀ c ∈ s.toList, Text.isAsciiDigit c = true) :
    Number.readInteger? s =
      if Number.maxDigits < s.toList.length then none
      else some (Decimal.digitsValue s.toList : Int) := by
  have hall : s.toList.all Text.isAsciiDigit = true := List.all_eq_true.2 hdigits
  have hbody : Number.body s = s.toList := Number.body_digits hdigits
  rw [Number.readInteger?_of_isDigit
    (List.all_eq_true.2 fun c hc => Text.isDigit_of_isAsciiDigit (hdigits c hc)), hbody, hall,
    List.isEmpty_eq_false_iff.2 hne]
  simp

namespace Value

/-- Does the value write the integer: as itself, or in digits that are no more than are read? -/
inductive Writes : Value → Int → Prop
  | int (n : Int) : Writes (.int n) n
  | digits {s : String} (hne : s.toList ≠ [])
    (hdigits : ∀ c ∈ s.toList, Text.isAsciiDigit c = true)
    (hlength : s.toList.length ≤ Number.maxDigits) :
    Writes (.text s) (Decimal.digitsValue s.toList)

/-- Is the value a text of more digits than are read as an integer? -/
def Overlong (v : Value) : Prop :=
  ∃ s, v = .text s ∧ (∀ c ∈ s.toList, Text.isAsciiDigit c = true) ∧
    Number.maxDigits < s.toList.length

variable {v : Value} {n : Int}

theorem isIntegerToken_text {s : String} : (Value.text s).isIntegerToken = true ↔
    s.toList ≠ [] ∧ ∀ c ∈ s.toList, Text.isAsciiDigit c = true := by
  simp [isIntegerToken]

theorem Writes.isIntegerToken (h : v.Writes n) : v.isIntegerToken = true := by
  cases h with
  | int => rfl
  | digits hne hdigits => exact isIntegerToken_text.2 ⟨hne, hdigits⟩

theorem Writes.toInt (h : v.Writes n) : v.toInt = .ok n := by
  cases h with
  | int => rfl
  | digits hne hdigits hlength =>
    rw [Value.toInt, Number.readInteger?_of_digits hne hdigits, if_neg (Nat.not_lt.2 hlength)]
    rfl

theorem Writes.unique {m : Int} (h : v.Writes n) (h' : v.Writes m) : n = m :=
  Except.ok.inj (h.toInt.symm.trans h'.toInt)

theorem Overlong.isIntegerToken (h : v.Overlong) : v.isIntegerToken = true := by
  obtain ⟨s, rfl, hdigits, hlength⟩ := h
  exact isIntegerToken_text.2 ⟨List.ne_nil_of_length_pos (by omega), hdigits⟩

theorem Overlong.toInt (h : v.Overlong) : v.toInt = .error .badValue := by
  obtain ⟨s, rfl, hdigits, hlength⟩ := h
  rw [Value.toInt, Number.readInteger?_of_digits (List.ne_nil_of_length_pos (by omega)) hdigits,
    if_pos hlength]
  rfl

theorem Overlong.not_writes (h : v.Overlong) : ¬ v.Writes n := fun hn => by
  have := hn.toInt
  rw [h.toInt] at this
  cases this

theorem overlong_replicate {c : Char} (hc : Text.isAsciiDigit c = true) {k : Nat}
    (hk : Number.maxDigits < k) : (Value.text (String.ofList (List.replicate k c))).Overlong := by
  refine ⟨_, rfl, fun d hd => ?_, by simpa using hk⟩
  rw [String.toList_ofList] at hd
  rwa [List.eq_of_mem_replicate hd]

/-- **What counts as an integer** writes one, or is a text of too many digits. -/
theorem isIntegerToken_iff : v.isIntegerToken = true ↔ (∃ n, v.Writes n) ∨ v.Overlong := by
  constructor
  · intro h
    cases v with
    | int n => exact .inl ⟨n, .int n⟩
    | text s =>
      obtain ⟨hne, hdigits⟩ := isIntegerToken_text.1 h
      by_cases hlength : s.toList.length ≤ Number.maxDigits
      · exact .inl ⟨_, .digits hne hdigits hlength⟩
      · exact .inr ⟨s, rfl, hdigits, Nat.lt_of_not_le hlength⟩
    | _ => cases h
  · rintro (⟨n, h⟩ | h)
    · exact h.isIntegerToken
    · exact h.isIntegerToken

end Value

end Listing
