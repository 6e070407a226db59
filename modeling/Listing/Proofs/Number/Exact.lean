import Listing.Proofs.Number.Compare
import Mathlib.Algebra.Order.Field.Power
import Mathlib.Data.Rat.Cast.Order
import Mathlib.Tactic.NormNum

/-!
# Exact numbers are rational numbers

An exact number is a rational number, `Exact.value`, and exact numbers compare as those do
(`Exact.compare_eq`), although only the positions of their first digits may have been looked at.
Integers are the rational numbers that they are: `Exact.value_ofInt`.
-/

namespace Listing

namespace Binary64

theorem lt_pow_digitCount (a : Nat) : a < 10 ^ digitCount a := by
  unfold digitCount
  split
  · next ha =>
    rw [ha]
    decide
  · exact (Nat.length_toDigits_le_iff (by decide) Nat.length_toDigits_pos).1 (Nat.le_refl _)

theorem pow_digitCount_le {a : Nat} (ha : 0 < a) : 10 ^ (digitCount a - 1) ≤ a := by
  unfold digitCount
  rw [if_neg (by omega)]
  rcases Nat.eq_zero_or_pos ((Nat.toDigits 10 a).length - 1) with hzero | hpos
  · rw [hzero]
    exact ha
  · by_contra hlt
    have := (Nat.length_toDigits_le_iff (by decide) hpos).2 (Nat.not_le.1 hlt)
    omega

theorem ite_ne_nan (c : Prop) [Decidable c] (negative : Bool) (m : Nat) (e : Int) :
    (if c then infinite negative else finite negative m e) ≠ .nan := by
  split <;> simp

theorem ofRatio_ne_nan (negative : Bool) (num den : Nat) : ofRatio negative num den ≠ .nan := by
  unfold ofRatio
  split
  · simp [zero]
  · exact ite_ne_nan _ negative _ _

theorem ofScaled_ne_nan (negative : Bool) (c : Nat) (e : Int) : ofScaled negative c e ≠ .nan := by
  unfold ofScaled
  dsimp only
  split
  · simp [zero]
  split
  · simp
  split
  · exact ofRatio_ne_nan negative _ 1
  · exact ofRatio_ne_nan negative c _

end Binary64

namespace Exact

/-- The rational number that an exact number is. -/
def value (x : Exact) : ℚ :=
  (if x.negative then -1 else 1) * (x.coefficient * 10 ^ x.exponent)

/-- A number with fewer digits before the point is less. -/
theorem lt_of_digitCount_lt {a b : Nat} {i j : Int} (hb : 0 < b)
    (h : (Binary64.digitCount a : Int) + i < Binary64.digitCount b + j) :
    (a : ℚ) * 10 ^ i < b * 10 ^ j := by
  have ha : (a : ℚ) < 10 ^ (Binary64.digitCount a : Int) := by
    exact_mod_cast Binary64.lt_pow_digitCount a
  have hcount : 0 < Binary64.digitCount b := by
    have := Binary64.lt_pow_digitCount b
    rcases Nat.eq_zero_or_pos (Binary64.digitCount b) with hzero | hpos
    · rw [hzero] at this
      omega
    · exact hpos
  have hb : (10 : ℚ) ^ ((Binary64.digitCount b : Int) - 1) ≤ b := by
    have := Binary64.pow_digitCount_le hb
    rw [show (Binary64.digitCount b : Int) - 1 = ((Binary64.digitCount b - 1 : Nat) : Int) by omega]
    exact_mod_cast this
  calc (a : ℚ) * 10 ^ i < 10 ^ (Binary64.digitCount a : Int) * 10 ^ i :=
        mul_lt_mul_of_pos_right ha (zpow_pos (by norm_num) i)
    _ = 10 ^ ((Binary64.digitCount a : Int) + i) := (zpow_add₀ (by norm_num) ..).symm
    _ ≤ 10 ^ ((Binary64.digitCount b : Int) - 1 + j) :=
        zpow_le_zpow_right₀ (by norm_num) (by omega)
    _ = 10 ^ ((Binary64.digitCount b : Int) - 1) * 10 ^ j := zpow_add₀ (by norm_num) ..
    _ ≤ b * 10 ^ j := mul_le_mul_of_nonneg_right hb (zpow_nonneg (by norm_num) j)

/-- A number with a smaller exponent. -/
theorem mul_zpow_of_le (b : Nat) {i j : Int} (h : i ≤ j) :
    (b : ℚ) * 10 ^ j = ((b * Nat.pow 10 (j - i).toNat : Nat) : ℚ) * 10 ^ i := by
  rw [Nat.cast_mul, Nat.pow_eq, Nat.cast_pow, Nat.cast_ofNat, mul_assoc, ← zpow_natCast,
    Int.toNat_of_nonneg (by omega), ← zpow_add₀ (by norm_num), Int.sub_add_cancel]

theorem compare_mul_zpow (a b : Nat) (i : Int) :
    Ord.compare ((a : ℚ) * 10 ^ i) (b * 10 ^ i) = Ord.compare a b := by
  have hpos : (0 : ℚ) < 10 ^ i := zpow_pos (by norm_num) i
  rcases Nat.lt_trichotomy a b with h | rfl | h
  · rw [Nat.compare_eq_lt.2 h, compare_lt_iff_lt]
    exact mul_lt_mul_of_pos_right (by exact_mod_cast h) hpos
  · rw [Nat.compare_eq_eq.2 rfl, compare_eq_iff_eq]
  · rw [Nat.compare_eq_gt.2 h, compare_gt_iff_gt]
    exact mul_lt_mul_of_pos_right (by exact_mod_cast h) hpos

theorem compareMagnitude_eq {a b : Nat} (ha : 0 < a) (hb : 0 < b) (i j : Int) :
    compareMagnitude a i b j = Ord.compare ((a : ℚ) * 10 ^ i) (b * 10 ^ j) := by
  unfold compareMagnitude
  dsimp only
  split
  · next hne =>
    rcases Int.lt_or_gt_of_ne hne with h | h
    · rw [Int.compare_eq_lt.2 h, eq_comm, compare_lt_iff_lt]
      exact lt_of_digitCount_lt hb h
    · rw [Int.compare_eq_gt.2 h, eq_comm, compare_gt_iff_gt]
      exact lt_of_digitCount_lt ha h
  · split
    · next h => rw [mul_zpow_of_le b h, compare_mul_zpow]
    · next h => rw [mul_zpow_of_le a (by omega : j ≤ i), compare_mul_zpow]

theorem compare_neg (x y : ℚ) : Ord.compare (-x) (-y) = Ord.compare y x := by
  rcases lt_trichotomy x y with h | rfl | h
  · rw [compare_gt_iff_gt.2 h, compare_gt_iff_gt]
    exact neg_lt_neg h
  · rw [compare_eq_iff_eq.2 (rfl : -x = -x), compare_eq_iff_eq.2 (rfl : x = x)]
  · rw [compare_lt_iff_lt.2 h, compare_lt_iff_lt]
    exact neg_lt_neg h

/-- **Exact numbers compare as rational numbers.** -/
theorem compare_eq (x y : Exact) : x.compare y = Ord.compare x.value y.value := by
  have hpos : ∀ {a : Nat} (i : Int), a ≠ 0 → (0 : ℚ) < a * 10 ^ i := fun i ha =>
    mul_pos (by exact_mod_cast Nat.pos_of_ne_zero ha) (zpow_pos (by norm_num) i)
  obtain ⟨s, a, i⟩ := x
  obtain ⟨t, b, j⟩ := y
  unfold Exact.compare value
  dsimp only
  split
  · next ha hb => simp
  · next b hb =>
    have := hpos j hb
    cases t with
    | false =>
      rw [if_neg Bool.false_ne_true, eq_comm, compare_lt_iff_lt]
      simpa using this
    | true =>
      rw [if_pos rfl, eq_comm, compare_gt_iff_gt]
      simpa using this
  · next a ha =>
    have := hpos i ha
    cases s with
    | false =>
      rw [if_neg Bool.false_ne_true, eq_comm, compare_gt_iff_gt]
      simpa using this
    | true =>
      rw [if_pos rfl, eq_comm, compare_lt_iff_lt]
      simpa using this
  · next ha hb _ =>
    have ha : a ≠ 0 := ha
    have hb : b ≠ 0 := hb
    have hleft := hpos i ha
    have hright := hpos j hb
    cases s <;> cases t <;> simp only [Bool.false_eq_true, if_false, if_true, one_mul, neg_mul]
    · exact compareMagnitude_eq (Nat.pos_of_ne_zero ha) (Nat.pos_of_ne_zero hb) i j
    · rw [eq_comm, compare_gt_iff_gt]
      exact (neg_neg_of_pos hright).trans hleft
    · rw [eq_comm, compare_lt_iff_lt]
      exact (neg_neg_of_pos hleft).trans hright
    · rw [compareMagnitude_eq (Nat.pos_of_ne_zero hb) (Nat.pos_of_ne_zero ha) j i, compare_neg]

theorem value_ofInt (n : Int) : (ofInt n).value = n := by
  unfold value ofInt
  rw [zpow_zero, mul_one, Nat.cast_natAbs]
  by_cases hn : n < 0
  · simp [hn, abs_of_neg hn]
  · simp [hn, abs_of_nonneg (Int.not_lt.1 hn)]

end Exact

end Listing
