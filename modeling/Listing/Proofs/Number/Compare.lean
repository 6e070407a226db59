import Listing.Value.Order

/-!
# Comparing integers

As exact numbers integers compare as they do: `Exact.compare_ofInt`. So do they as values
(`Value.compare?_int`).
-/

namespace Listing

namespace Binary64

theorem digitCount_mono {a b : Nat} (h : a ≤ b) : digitCount a ≤ digitCount b := by
  unfold digitCount
  split
  · exact Nat.zero_le _
  rw [if_neg (by omega), Nat.length_toDigits_le_iff (by decide) Nat.length_toDigits_pos]
  exact Nat.lt_of_le_of_lt h
    ((Nat.length_toDigits_le_iff (by decide) Nat.length_toDigits_pos).1 (Nat.le_refl _))

end Binary64

namespace Exact

theorem compareMagnitude_zero (a b : Nat) : compareMagnitude a 0 b 0 = Ord.compare a b := by
  unfold compareMagnitude
  simp only [Int.add_zero, Int.le_refl, if_true, Int.sub_self, Int.toNat_zero, Nat.pow_eq, Nat.pow_zero,
    Nat.mul_one]
  split
  · next hne =>
    rcases Nat.lt_trichotomy a b with h | h | h
    · have := Binary64.digitCount_mono (Nat.le_of_lt h)
      rw [Nat.compare_eq_lt.2 h, Int.compare_eq_lt.2 (by omega)]
    · exact absurd (by rw [h]) hne
    · have := Binary64.digitCount_mono (Nat.le_of_lt h)
      rw [Nat.compare_eq_gt.2 h, Int.compare_eq_gt.2 (by omega)]
  · rfl

/-- The order of two integers by their signs and magnitudes. -/
theorem compare_ofInt (a b : Int) : (ofInt a).compare (ofInt b) = Ord.compare a b := by
  unfold Exact.compare ofInt
  dsimp only
  split
  · next ha hb => rw [Int.compare_eq_eq.2 (by omega)]
  · next ha hb =>
    have hb : b.natAbs ≠ 0 := hb
    split
    · next h => rw [Int.compare_eq_gt.2 (by simp at h; omega)]
    · next h => rw [Int.compare_eq_lt.2 (by simp at h; omega)]
  · next hb ha =>
    have ha : a.natAbs ≠ 0 := ha
    split
    · next h => rw [Int.compare_eq_lt.2 (by simp at h; omega)]
    · next h => rw [Int.compare_eq_gt.2 (by simp at h; omega)]
  · split
    · next h₁ h₂ => rw [Int.compare_eq_lt.2 (by simp at h₁ h₂; omega)]
    · next h₁ h₂ => rw [Int.compare_eq_gt.2 (by simp at h₁ h₂; omega)]
    · next h₁ h₂ =>
      simp only [decide_eq_false_iff_not] at h₁ h₂
      rw [compareMagnitude_zero]
      rcases Int.lt_trichotomy a b with h | h | h
      · rw [Int.compare_eq_lt.2 h, Nat.compare_eq_lt.2 (by omega)]
      · rw [Int.compare_eq_eq.2 h, Nat.compare_eq_eq.2 (by omega)]
      · rw [Int.compare_eq_gt.2 h, Nat.compare_eq_gt.2 (by omega)]
    · next h₁ h₂ =>
      simp only [decide_eq_true_eq] at h₁ h₂
      rw [compareMagnitude_zero]
      rcases Int.lt_trichotomy a b with h | h | h
      · rw [Int.compare_eq_lt.2 h, Nat.compare_eq_lt.2 (by omega)]
      · rw [Int.compare_eq_eq.2 h, Nat.compare_eq_eq.2 (by omega)]
      · rw [Int.compare_eq_gt.2 h, Nat.compare_eq_gt.2 (by omega)]

end Exact

namespace Value

theorem compare?_int (a b : Int) :
    (Value.int a).compare? (.int b) = .ok (some (Ord.compare a b)) := by
  have h : (Value.int a).compare? (.int b) =
      .ok (some ((Exact.ofInt a).compare (Exact.ofInt b))) := rfl
  rw [h, Exact.compare_ofInt]

theorem less?_int (a b : Int) : (Value.int a).less? (.int b) = .ok (decide (a < b)) := by
  rw [less?, compare?_int]
  simp only [Except.map, Except.ok.injEq]
  rcases Int.lt_trichotomy a b with h | h | h
  · rw [Int.compare_eq_lt.2 h, decide_eq_true h]
    rfl
  · rw [Int.compare_eq_eq.2 h, decide_eq_false (by omega)]
    rfl
  · rw [Int.compare_eq_gt.2 h, decide_eq_false (by omega)]
    rfl

theorem greater_int (a b : Int) :
    Comparison.greater.holds? (.int a) (.int b) = .ok (decide (b < a)) := by
  rw [Comparison.holds?, compare?_int]
  simp only [Except.map, Except.ok.injEq]
  rcases Int.lt_trichotomy a b with h | h | h
  · rw [Int.compare_eq_lt.2 h, decide_eq_false (by omega)]
    rfl
  · rw [Int.compare_eq_eq.2 h, decide_eq_false (by omega)]
    rfl
  · rw [Int.compare_eq_gt.2 h, decide_eq_true h]
    rfl

theorem equal_int (a b : Int) : (Value.int a).equal (.int b) = decide (a = b) := by
  have h : (Value.int a).equal (.int b) =
      (some ((Exact.ofInt a).compare (Exact.ofInt b)) == some .eq) := by
    unfold equal equal? equalNumbers?
    rfl
  rw [h, Exact.compare_ofInt]
  by_cases hab : a = b
  · rw [Int.compare_eq_eq.2 hab, decide_eq_true hab]
    rfl
  · rw [decide_eq_false hab, beq_eq_false_iff_ne]
    simpa [Int.compare_eq_eq] using hab

theorem equal?_int (a b : Int) :
    (Value.int a).equal? (.int b) = .ok (Ord.compare a b == .eq) := by
  have h : (Value.int a).equal? (.int b) =
      .ok (some ((Exact.ofInt a).compare (Exact.ofInt b)) == some .eq) := by
    unfold equal? equalNumbers?
    rfl
  rw [h, Exact.compare_ofInt]
  rfl

theorem equal_text {v : Value} {s : String} : v.equal (.text s) = true ↔ v = .text s := by
  cases v <;> simp [equal, equal?, equalNumbers?, number?, isYes]

theorem equal?_text (v : Value) (s : String) : v.equal? (.text s) = .ok (v.equal (.text s)) := by
  cases v <;> simp [equal, equal?, equalNumbers?, number?, isYes]

theorem text_equal {v : Value} {s : String} : (Value.text s).equal v = true ↔ v = .text s := by
  rw [eq_comm (a := v)]
  cases v <;> simp [equal, equal?, equalNumbers?, number?, isYes]

end Value

end Listing
