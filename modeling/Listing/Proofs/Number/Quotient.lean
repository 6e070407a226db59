import Listing.Page
import Listing.Proofs.Outcome
import Mathlib.Data.Nat.Log
import Mathlib.Tactic.Ring

/-!
# The number of pages

The number of pages is the ceiling of a quotient that was rounded to a binary number first. A quotient
with at most fifty-three digits before the point is rounded on a grid that divides one, which can only
lead to the integer below its ceiling; a greater one is rounded to a multiple of a power of two, and
from `Binary64.overflowBound` on to infinity. `Number.KeepsCeiling` says of two integers whether the
ceiling of their quotient outlives that, and `Number.quotientCeiling?_cases` that it says so; it does
for every dividend below `2 ^ 53` (`Number.keepsCeiling_of_lt`).

A listing has at least one page. Its number of pages is computed or refused accordingly
(`lastPage_cases`), and for fewer than `2 ^ 53` rows it is exact (`lastPage_eq`): the least number of
pages that hold all rows (`isLeast_pages`), where a page has another one after it exactly if there are
rows after it (`lt_pages_iff`).
-/

namespace Listing

/-! ## Rounding and exponents -/

namespace Binary64

/-- Rounding leads beyond a number exactly if the quotient lies more than one half above it, or one
half above it where it is odd. -/
theorem lt_roundHalfEven_iff {den : Nat} (hd : 0 < den) (num t : Nat) :
    t < roundHalfEven num den ↔
      den * (2 * t + 1) < 2 * num ∨ den * (2 * t + 1) = 2 * num ∧ t % 2 = 1 := by
  have hdiv : den * (num / den) + num % den = num := Nat.div_add_mod num den
  have hmod := Nat.mod_lt num hd
  have hstep : ∀ s, den * (2 * s + 1) = 2 * (den * s) + den := fun s => by ring
  have hround : roundHalfEven num den =
      if den < 2 * (num % den) ∨ 2 * (num % den) = den ∧ num / den % 2 = 1 then num / den + 1
      else num / den := by
    unfold roundHalfEven
    simp only [Bool.or_eq_true, decide_eq_true_eq, Bool.and_eq_true, beq_iff_eq]
  rw [hround, hstep]
  rcases Nat.lt_trichotomy t (num / den) with h | rfl | h
  · have := Nat.mul_le_mul_left den (Nat.succ_le_of_lt h)
    rw [Nat.mul_succ] at this
    split <;> omega
  · split <;> omega
  · have := Nat.mul_le_mul_left den (Nat.succ_le_of_lt h)
    rw [Nat.mul_succ] at this
    split <;> omega

/-- The exponent of the number nearest to a quotient. -/
def exponentOf (num den : Nat) : Int :=
  let guess : Int := (Nat.log2 num : Int) - Nat.log2 den - 52
  let first := scale num den guess
  max (if first.1 / first.2 < 2 ^ 52 then guess - 1 else guess) minExponent

theorem ofRatio_eq {num den : Nat} (h : 0 < num) (negative : Bool) :
    ofRatio negative num den =
      let e := exponentOf num den
      let scaled := scale num den e
      let m := roundHalfEven scaled.1 scaled.2
      let (m, e) := if m = 2 ^ 53 then (2 ^ 52, e + 1) else (m, e)
      if maxExponent < e then .infinite negative else .finite negative m e := by
  rw [ofRatio, if_neg (by omega)]
  rfl

theorem scale_of_nonpos (num den : Nat) {e : Int} (he : e ≤ 0) :
    scale num den e = (num * 2 ^ (-e).toNat, den) := by
  rcases Int.lt_or_eq_of_le he with he | rfl
  · simp [scale, show ¬ 0 ≤ e by omega]
  · simp [scale]

theorem scale_of_nonneg (num den : Nat) {e : Int} (he : 0 ≤ e) :
    scale num den e = (num, den * 2 ^ e.toNat) := if_pos he

/-- A scaled quotient is below a power of two as the quotient is below another. -/
theorem scale_div_lt_iff (num : Nat) {den : Nat} (hd : 0 < den) {i j : Nat} {e : Int}
    (h : (i : Int) = j + e) :
    (scale num den e).1 / (scale num den e).2 < 2 ^ j ↔ num < 2 ^ i * den := by
  rcases Int.le_total 0 e with he | he
  · have hi : i = j + e.toNat := by omega
    rw [scale_of_nonneg _ _ he, Nat.div_lt_iff_lt_mul (Nat.mul_pos hd (Nat.two_pow_pos _)), hi,
      Nat.pow_add, Nat.mul_assoc, Nat.mul_comm den]
  · have hj : j = i + (-e).toNat := by omega
    rw [scale_of_nonpos _ _ he, Nat.div_lt_iff_lt_mul hd, hj, Nat.pow_add,
      Nat.mul_right_comm, Nat.mul_lt_mul_right (Nat.two_pow_pos _)]

theorem log2_mono {m n : Nat} (h : m ≤ n) : m.log2 ≤ n.log2 := by
  rw [Nat.log2_eq_log_two, Nat.log2_eq_log_two]
  exact Nat.log_mono_right h

/-- A quotient below one has an exponent that is not positive. -/
theorem exponentOf_nonpos {num den : Nat} (h : num < den) : exponentOf num den ≤ 0 := by
  have hlog := log2_mono (Nat.le_of_lt h)
  have hmin : minExponent = -1074 := rfl
  unfold exponentOf
  dsimp only
  split <;> omega

/-- A quotient has as many digits as the numerator has more than the denominator, or one more. -/
theorem log2_div {num den : Nat} (hd : 0 < den) (h : den ≤ num) :
    num.log2 - den.log2 =
      if num < 2 ^ (num.log2 - den.log2) * den then (num / den).log2 + 1 else (num / den).log2 := by
  have hquot : num / den ≠ 0 := (Nat.div_pos h hd).ne'
  have hlog := log2_mono h
  split
  next hlt =>
    have hpos : num.log2 - den.log2 ≠ 0 := by
      intro hzero
      rw [hzero, Nat.pow_zero, Nat.one_mul] at hlt
      omega
    obtain ⟨k, hk⟩ := Nat.exists_eq_add_one_of_ne_zero hpos
    have hlower : 2 ^ k * den ≤ num := by
      calc 2 ^ k * den ≤ 2 ^ k * 2 ^ (den.log2 + 1) :=
            Nat.mul_le_mul_left _ (Nat.le_of_lt Nat.lt_log2_self)
        _ = 2 ^ num.log2 := by
          rw [← Nat.pow_add]
          congr 1
          omega
        _ ≤ num := Nat.log2_self_le (by omega)
    rw [hk] at hlt ⊢
    rw [(Nat.log2_eq_iff hquot).2
      ⟨(Nat.le_div_iff_mul_le hd).2 hlower, (Nat.div_lt_iff_lt_mul hd).2 hlt⟩]
  next hlt =>
    have hupper : num < 2 ^ (num.log2 - den.log2 + 1) * den := by
      calc num < 2 ^ (num.log2 + 1) := Nat.lt_log2_self
        _ = 2 ^ (num.log2 - den.log2 + 1) * 2 ^ den.log2 := by
          rw [← Nat.pow_add]
          congr 1
          omega
        _ ≤ 2 ^ (num.log2 - den.log2 + 1) * den := Nat.mul_le_mul_left _ (Nat.log2_self_le (by omega))
    exact ((Nat.log2_eq_iff hquot).2 ⟨(Nat.le_div_iff_mul_le hd).2 (Nat.le_of_not_lt hlt),
      (Nat.div_lt_iff_lt_mul hd).2 hupper⟩).symm

/-- **The exponent of a quotient that is not below one** leaves fifty-three digits before the point. -/
theorem exponentOf_eq {num den : Nat} (hd : 0 < den) (h : den ≤ num) :
    exponentOf num den = ((num / den).log2 : Int) - 52 := by
  have hlog := log2_mono h
  have hmin : minExponent = -1074 := rfl
  have hscale : ((num.log2 - den.log2 : Nat) : Int) =
      (52 : Nat) + ((num.log2 : Int) - den.log2 - 52) := by omega
  have hdigits := log2_div hd h
  unfold exponentOf
  dsimp only
  simp only [scale_div_lt_iff num hd hscale]
  split at hdigits <;> rename_i hlt
  · rw [if_pos hlt]
    omega
  · rw [if_neg hlt]
    omega

/-- The least quotient that is rounded to infinity. -/
def overflowBound : Nat := (2 ^ 54 - 1) * 2 ^ 970

end Binary64

/-! ## Ceilings -/

namespace Number

open Binary64

/-- The least integer above a quotient. -/
def ceilingOf (a b : Nat) : Nat := (a + b - 1) / b

theorem ceilingOf_le_iff {a b n : Nat} (hb : 0 < b) : ceilingOf a b ≤ n ↔ a ≤ n * b := by
  unfold ceilingOf
  rw [← Nat.lt_succ_iff, Nat.div_lt_iff_lt_mul hb, Nat.succ_mul]
  omega

theorem le_ceilingOf_mul (a : Nat) {b : Nat} (hb : 0 < b) : a ≤ ceilingOf a b * b :=
  (ceilingOf_le_iff hb).1 (Nat.le_refl _)

theorem ceilingOf_mul_lt (a : Nat) {b : Nat} (hb : 0 < b) : ceilingOf a b * b < a + b := by
  have h := Nat.div_mul_le_self (a + b - 1) b
  unfold ceilingOf
  omega

theorem neg_neg_ediv (m : Nat) {d : Nat} (hd : 0 < d) :
    -((-(m : Int)) / (d : Int)) = (ceilingOf m d : Nat) := by
  have hle : (m : Int) ≤ (ceilingOf m d : Nat) * (d : Int) := by
    exact_mod_cast le_ceilingOf_mul m hd
  have hlt : (ceilingOf m d : Nat) * (d : Int) < m + d := by
    exact_mod_cast ceilingOf_mul_lt m hd
  have heq : (-(m : Int)) / d = -(ceilingOf m d : Nat) := by
    rw [Int.ediv_eq_iff_of_pos (by omega), Int.neg_mul]
    constructor <;> omega
  rw [heq, Int.neg_neg]

theorem ceiling_of_nonpos (m : Nat) {e : Int} (he : e ≤ 0) :
    ceiling false m e = (ceilingOf m (2 ^ (-e).toNat) : Nat) := by
  rw [← neg_neg_ediv m (Nat.two_pow_pos _)]
  rcases Int.lt_or_eq_of_le he with he | rfl
  · simp [ceiling, show ¬ 0 ≤ e by omega]
  · simp [ceiling]

theorem ceiling_of_nonneg (m : Nat) {e : Int} (he : 0 ≤ e) :
    ceiling false m e = (m * 2 ^ e.toNat : Nat) := by
  simp [ceiling, he]

/-- A mantissa that has become too large is halved, which changes no ceiling. -/
theorem ceiling_carry (e : Int) : ceiling false (2 ^ 52) (e + 1) = ceiling false (2 ^ 53) e := by
  rcases Int.lt_or_le e 0 with he | he
  · have hpow : 2 ^ (-e).toNat = 2 * 2 ^ (-(e + 1)).toNat := by
      rw [show (-e).toNat = (-(e + 1)).toNat + 1 by omega, Nat.pow_succ, Nat.mul_comm]
    have hpos : 0 < 2 ^ (-(e + 1)).toNat := Nat.two_pow_pos _
    rw [ceiling_of_nonpos _ (by omega), ceiling_of_nonpos _ (by omega), hpow]
    congr 1
    apply Nat.le_antisymm
    · rw [ceilingOf_le_iff hpos]
      have := le_ceilingOf_mul (2 ^ 53) (b := 2 * 2 ^ (-(e + 1)).toNat) (by omega)
      rw [← Nat.mul_assoc, Nat.mul_right_comm] at this
      omega
    · rw [ceilingOf_le_iff (by omega), ← Nat.mul_assoc, Nat.mul_right_comm]
      have := le_ceilingOf_mul (2 ^ 52) hpos
      omega
  · rw [ceiling_of_nonneg _ (by omega), ceiling_of_nonneg _ he,
      show (e + 1).toNat = e.toNat + 1 by omega, Nat.pow_succ]
    congr 1
    omega

/-- The ceiling of a rounded quotient by its mantissa, if it is not rounded to infinity. -/
theorem quotientCeiling?_eq {a : Nat} (h : 0 < a) (b : Nat) :
    quotientCeiling? a b =
      let e := exponentOf a b
      let m := roundHalfEven (scale a b e).1 (scale a b e).2
      if maxExponent < (if m = 2 ^ 53 then e + 1 else e) then none else some (ceiling false m e) := by
  have hsign : ((((a : Int) < 0) : Bool) != (((b : Int) < 0) : Bool)) = false := by
    rw [decide_eq_false (by omega), decide_eq_false (by omega)]
    rfl
  unfold quotientCeiling?
  rw [hsign, Int.natAbs_natCast, Int.natAbs_natCast, ofRatio_eq h]
  dsimp only
  generalize exponentOf a b = e
  generalize roundHalfEven (scale a b e).1 (scale a b e).2 = m
  by_cases hm : m = 2 ^ 53
  · simp only [hm, if_true]
    by_cases he : maxExponent < e + 1
    · simp only [if_pos he]
    · simp only [if_neg he, ceiling_carry]
  · simp only [hm, if_false]
    by_cases he : maxExponent < e
    · simp only [if_pos he]
    · simp only [if_neg he]

theorem quotientCeiling?_zero (b : Nat) : quotientCeiling? 0 b = some 0 := by
  have hsign : ((((0 : Int) < 0) : Bool) != (((b : Int) < 0) : Bool)) = false := by
    rw [decide_eq_false (by omega), decide_eq_false (by omega)]
    rfl
  have hceiling : quotientCeiling? 0 b =
      some (ceiling ((((0 : Int) < 0) : Bool) != (((b : Int) < 0) : Bool)) 0 minExponent) := rfl
  rw [hceiling, hsign]
  decide +kernel

/-- A quotient with an exponent that is not positive is rounded on a grid that divides one. -/
theorem quotientCeiling?_of_nonpos {a b : Nat} (h : 0 < a) (he : exponentOf a b ≤ 0) :
    quotientCeiling? a b = some ((ceilingOf (roundHalfEven (a * 2 ^ (-exponentOf a b).toNat) b)
      (2 ^ (-exponentOf a b).toNat) : Nat) : Int) := by
  have hmax : maxExponent = 971 := rfl
  rw [quotientCeiling?_eq h]
  dsimp only
  rw [scale_of_nonpos _ _ he, ceiling_of_nonpos _ he, if_neg]
  split <;> omega

/-- A quotient with a positive exponent is rounded to a multiple of a power of two. -/
theorem quotientCeiling?_of_pos {a b : Nat} (h : 0 < a) (he : 0 < exponentOf a b) :
    quotientCeiling? a b =
      let d := 2 ^ (exponentOf a b).toNat
      let m := roundHalfEven a (b * d)
      if maxExponent < (if m = 2 ^ 53 then exponentOf a b + 1 else exponentOf a b) then none
      else some ((m * d : Nat) : Int) := by
  rw [quotientCeiling?_eq h]
  dsimp only
  rw [scale_of_nonneg _ _ (by omega), ceiling_of_nonneg _ (by omega)]

/-! ## Quotients below one, fine and coarse grids -/

section Cases

variable {a b : Nat}

/-- A quotient below one is rounded to one at most. -/
theorem quotientCeiling?_of_lt (hab : a < b) :
    ∃ c : Nat, quotientCeiling? a b = some (c : Int) ∧ c ≤ 1 := by
  rcases Nat.eq_zero_or_pos a with rfl | ha
  · exact ⟨0, quotientCeiling?_zero b, Nat.zero_le 1⟩
  refine ⟨_, quotientCeiling?_of_nonpos ha (exponentOf_nonpos hab), ?_⟩
  rw [ceilingOf_le_iff (Nat.two_pow_pos _), Nat.one_mul]
  apply Nat.le_of_not_lt
  rw [lt_roundHalfEven_iff (by omega), Nat.mul_succ, Nat.mul_left_comm]
  have := Nat.mul_le_mul_right (2 ^ (-exponentOf a b).toNat) (Nat.le_of_lt hab)
  omega

theorem two_pow_log2_mul_le (hb : 0 < b) (hab : b ≤ a) : 2 ^ (a / b).log2 * b ≤ a := by
  rw [← Nat.le_div_iff_mul_le hb]
  exact Nat.log2_self_le (Nat.div_pos hab hb).ne'

theorem lt_two_pow_log2_mul (hb : 0 < b) : a < 2 ^ ((a / b).log2 + 1) * b := by
  rw [← Nat.div_lt_iff_lt_mul hb]
  exact Nat.lt_log2_self

/-- What of the dividend stands above the last multiple of the divisor that is below it. -/
def lastPart (a b : Nat) : Nat := a - (ceilingOf a b - 1) * b

theorem one_le_ceilingOf (hb : 0 < b) (ha : 0 < a) : 1 ≤ ceilingOf a b := by
  by_contra hlt
  have := (ceilingOf_le_iff hb).1 (show ceilingOf a b ≤ 0 by omega)
  omega

theorem eq_add_lastPart (hb : 0 < b) (ha : 0 < a) :
    a = (ceilingOf a b - 1) * b + lastPart a b ∧ 0 < lastPart a b := by
  have hlt := ceilingOf_mul_lt a hb
  have hn := one_le_ceilingOf hb ha
  obtain ⟨n, hn'⟩ : ∃ n, ceilingOf a b = n + 1 := ⟨ceilingOf a b - 1, by omega⟩
  unfold lastPart
  rw [hn', Nat.succ_mul] at hlt
  rw [hn', Nat.add_sub_cancel]
  omega

/-- Does rounding keep the ceiling of a quotient? It does so below one. A quotient with at most
fifty-three digits before the point must not be rounded to the integer below its ceiling: the last part
of it has to be more than half a unit in the last place (or as much, where the integer below is
odd). A greater one is rounded to a multiple of a power of two, which its ceiling has to be. -/
def KeepsCeiling (a b : Nat) : Prop :=
  if a < b then True
  else if (a / b).log2 ≤ 52 then
    b < 2 ^ (53 - (a / b).log2) * lastPart a b ∨
      b = 2 ^ (53 - (a / b).log2) * lastPart a b ∧ (a / b).log2 = 52 ∧ ceilingOf a b % 2 = 0
  else 2 ^ ((a / b).log2 - 52) ∣ ceilingOf a b
deriving Decidable

/-- On a grid that divides one, the ceiling of the rounded quotient is that of the quotient, or one
less. -/
theorem ceilingOf_roundHalfEven (hb : 0 < b) (hab : b ≤ a) {d : Nat} (hd : 0 < d) :
    1 ≤ ceilingOf (roundHalfEven (a * d) b) d ∧
      (ceilingOf (roundHalfEven (a * d) b) d = ceilingOf a b ↔
        b < 2 * d * lastPart a b ∨
          b = 2 * d * lastPart a b ∧ (ceilingOf a b - 1) * d % 2 = 1) := by
  obtain ⟨ha, -⟩ := eq_add_lastPart hb (show 0 < a by omega)
  obtain ⟨n, hn⟩ : ∃ n, ceilingOf a b = n + 1 :=
    ⟨ceilingOf a b - 1, (Nat.sub_add_cancel (one_le_ceilingOf hb (by omega))).symm⟩
  rw [hn, Nat.add_sub_cancel] at ha ⊢
  have hupper : ceilingOf (roundHalfEven (a * d) b) d ≤ n + 1 := by
    rw [ceilingOf_le_iff hd]
    apply Nat.le_of_not_lt
    rw [lt_roundHalfEven_iff hb]
    have hle := Nat.mul_le_mul_right d (le_ceilingOf_mul a hb)
    have hsplit : b * (2 * ((n + 1) * d) + 1) = 2 * ((n + 1) * b * d) + b := by ring
    rw [hn] at hle
    omega
  have hlower : 0 < roundHalfEven (a * d) b := by
    rw [lt_roundHalfEven_iff hb]
    have := Nat.mul_le_mul hab hd
    omega
  refine ⟨one_le_ceilingOf hd hlower, ?_⟩
  have hiff : ceilingOf (roundHalfEven (a * d) b) d = n + 1 ↔ n * d < roundHalfEven (a * d) b := by
    rw [← Nat.not_le, ← ceilingOf_le_iff hd]
    omega
  have hdouble : 2 * (a * d) = b * (2 * (n * d)) + 2 * d * lastPart a b := by
    calc 2 * (a * d) = 2 * ((n * b + lastPart a b) * d) := by rw [← ha]
      _ = b * (2 * (n * d)) + 2 * d * lastPart a b := by ring
  rw [hiff, lt_roundHalfEven_iff hb, Nat.mul_succ, hdouble]
  omega

/-- A quotient of at most fifty-three digits before the point. -/
theorem quotientCeiling?_fine (hb : 0 < b) (hab : b ≤ a) (hk : (a / b).log2 ≤ 52) :
    ∃ c : Nat, quotientCeiling? a b = some (c : Int) ∧ 1 ≤ c ∧
      (c = ceilingOf a b ↔ KeepsCeiling a b) := by
  have he := exponentOf_eq hb hab
  obtain ⟨hone, hiff⟩ := ceilingOf_roundHalfEven hb hab (Nat.two_pow_pos (52 - (a / b).log2))
  have hd : (-exponentOf a b).toNat = 52 - (a / b).log2 := by omega
  refine ⟨_, quotientCeiling?_of_nonpos (by omega) (by omega), ?_⟩
  rw [hd]
  refine ⟨hone, hiff.trans ?_⟩
  have hpow : 2 * 2 ^ (52 - (a / b).log2) = 2 ^ (53 - (a / b).log2) := by
    rw [Nat.mul_comm, ← Nat.pow_succ]
    congr 1
    omega
  rw [KeepsCeiling, if_neg (by omega), if_pos hk, hpow]
  refine or_congr_right (and_congr_right fun _ => ?_)
  have hn := one_le_ceilingOf hb (show 0 < a by omega)
  rcases Nat.lt_or_eq_of_le hk with hlt | heq
  · have heven : (ceilingOf a b - 1) * 2 ^ (52 - (a / b).log2) % 2 = 0 := by
      rw [show 52 - (a / b).log2 = (51 - (a / b).log2) + 1 by omega, Nat.pow_succ, ← Nat.mul_assoc]
      exact Nat.mul_mod_left _ 2
    omega
  · rw [heq, Nat.sub_self, Nat.pow_zero, Nat.mul_one]
    omega

/-- A quotient is rounded up from an odd number exactly from one half above it on. -/
theorem roundHalfEven_eq_succ_iff {s t : Nat} (hs : 0 < s) (ht : t % 2 = 1)
    (htop : a ≤ (t + 1) * s) : roundHalfEven a s = t + 1 ↔ s * (2 * t + 1) ≤ 2 * a := by
  have hle : ¬ t + 1 < roundHalfEven a s := by
    rw [lt_roundHalfEven_iff hs]
    have hsplit : s * (2 * (t + 1) + 1) = 2 * ((t + 1) * s) + s := by ring
    omega
  have hiff := lt_roundHalfEven_iff hs a t
  omega

/-- A quotient of the highest binade is rounded up to infinity exactly from a bound on. -/
theorem roundHalfEven_top_iff (hb : 0 < b) {d : Nat} (hpos : 0 < d)
    (hd : d * (2 * (2 ^ 53 - 1) + 1) = 2 * overflowBound) (htop : a < d * 2 ^ 53 * b) :
    roundHalfEven a (b * d) = 2 ^ 53 ↔ overflowBound * b ≤ a := by
  have hle : a ≤ (2 ^ 53 - 1 + 1) * (b * d) := by
    rw [Nat.mul_comm b, ← Nat.mul_assoc, Nat.mul_comm _ d]
    exact Nat.le_of_lt htop
  refine (roundHalfEven_eq_succ_iff (Nat.mul_pos hb hpos) (by decide) hle).trans ?_
  rw [Nat.mul_assoc, hd, Nat.mul_comm b, Nat.mul_assoc]
  exact Nat.mul_le_mul_left_iff (by decide)

/-- A quotient below the highest binade is below the bound of infinity. -/
theorem lt_overflowBound_of_log2 (hb : 0 < b) (hk : (a / b).log2 < 1023) : a < overflowBound * b := by
  refine Nat.lt_of_lt_of_le (lt_two_pow_log2_mul hb) (Nat.mul_le_mul_right b ?_)
  exact Nat.le_trans (Nat.pow_le_pow_right (by decide) (Nat.succ_le_of_lt hk)) (by decide +kernel)

/-- A quotient above the highest binade is above the bound of infinity. -/
theorem overflowBound_le_of_log2 (hb : 0 < b) (hab : b ≤ a) (hk : 1023 < (a / b).log2) :
    overflowBound * b ≤ a := by
  refine Nat.le_trans (Nat.mul_le_mul_right b ?_) (two_pow_log2_mul_le hb hab)
  generalize (a / b).log2 = k at hk
  have hpow : 2 ^ k = 2 ^ 54 * 2 ^ (k - 54) := by
    rw [← Nat.pow_add]
    congr 1
    omega
  have hle : ∀ j ≤ k - 54, 2 ^ j ≤ 2 ^ (k - 54) := fun j => Nat.pow_le_pow_right (by decide)
  rw [hpow]
  exact Nat.mul_le_mul (Nat.sub_le ..) (hle 970 (by omega))

/-- A greater quotient is rounded to infinity, or to a multiple of a power of two. -/
theorem quotientCeiling?_coarse (hb : 0 < b) (hab : b ≤ a) (hk : 52 < (a / b).log2) :
    quotientCeiling? a b =
      if overflowBound * b ≤ a then none
      else
        some ((roundHalfEven a (b * 2 ^ ((a / b).log2 - 52)) *
          2 ^ ((a / b).log2 - 52) : Nat) : Int) := by
  have he := exponentOf_eq hb hab
  have hd : (exponentOf a b).toNat = (a / b).log2 - 52 := by omega
  have hupp := lt_two_pow_log2_mul (a := a) hb
  have hbelow := lt_overflowBound_of_log2 (a := a) hb
  have habove := overflowBound_le_of_log2 hb hab
  have hmax : maxExponent = 971 := rfl
  rw [quotientCeiling?_of_pos (by omega) (by omega)]
  dsimp only
  rw [hd, he]
  refine if_congr ?_ rfl rfl
  generalize hdigits : (a / b).log2 = k at *
  rcases Nat.lt_trichotomy k 1023 with hlt | htop | hgt
  · refine iff_of_false ?_ (Nat.not_le_of_lt (hbelow hlt))
    split <;> omega
  · have hpow : 2 ^ (k - 52) * 2 ^ 53 = 2 ^ (k + 1) := by
      rw [← Nat.pow_add]
      congr 1
      omega
    have hunit : 2 ^ (k - 52) * (2 * (2 ^ 53 - 1) + 1) = 2 * overflowBound := by
      rw [htop]
      decide +kernel
    rw [← hpow] at hupp
    have hcarry := roundHalfEven_top_iff hb (Nat.two_pow_pos (k - 52)) hunit hupp
    rw [← hcarry]
    split
    next h => exact iff_of_true (by rw [htop]; decide) h
    next h => exact iff_of_false (by rw [htop]; decide) h
  · refine iff_of_true ?_ (habove hgt)
    split <;> omega

/-- A multiple of a power of two is the ceiling of a quotient that is rounded to it. -/
theorem roundHalfEven_mul_eq_iff (hb : 0 < b) (ha : 0 < a) {d : Nat} (hd : 2 ≤ d) :
    roundHalfEven a (b * d) * d = ceilingOf a b ↔ d ∣ ceilingOf a b := by
  have hs : 0 < b * d := Nat.mul_pos hb (by omega)
  constructor
  · intro h
    exact h ▸ Nat.dvd_mul_left d _
  · rintro ⟨t, ht⟩
    have hlow := ceilingOf_mul_lt a hb
    have hupp := le_ceilingOf_mul a hb
    have hn := one_le_ceilingOf hb ha
    obtain ⟨u, rfl⟩ : ∃ u, t = u + 1 := by
      refine ⟨t - 1, (Nat.sub_add_cancel (Nat.pos_of_ne_zero ?_)).symm⟩
      rintro rfl
      omega
    have hsplit : d * (u + 1) * b = b * d * u + b * d := by ring
    have hdouble : b * 2 ≤ b * d := Nat.mul_le_mul_left b hd
    rw [ht, hsplit] at hlow hupp
    have hlt : u < roundHalfEven a (b * d) := by
      rw [lt_roundHalfEven_iff hs, Nat.mul_succ, Nat.mul_left_comm]
      omega
    have hle : ¬ u + 1 < roundHalfEven a (b * d) := by
      rw [lt_roundHalfEven_iff hs, Nat.mul_succ, Nat.mul_left_comm, Nat.mul_succ]
      omega
    rw [ht, show roundHalfEven a (b * d) = u + 1 by omega, Nat.mul_comm]

/-- **The ceiling of a rounded quotient.** It has none exactly from a bound on, and below that it is
the ceiling of the quotient, up to quotients that are rounded to zero, exactly if rounding keeps it. -/
theorem quotientCeiling?_cases (a : Nat) {b : Nat} (hb : 0 < b) :
    (overflowBound * b ≤ a → quotientCeiling? a b = none) ∧
      (a < overflowBound * b → ∃ c : Nat, quotientCeiling? a b = some (c : Int) ∧
        (max c 1 = max (ceilingOf a b) 1 ↔ KeepsCeiling a b)) := by
  have hunit : 2 ^ 53 ≤ overflowBound := by decide +kernel
  rcases Nat.lt_or_ge a b with hlt | hab
  · have hbound : b ≤ overflowBound * b := Nat.le_mul_of_pos_left b (by omega)
    obtain ⟨c, hc, hone⟩ := quotientCeiling?_of_lt hlt
    have hceiling : ceilingOf a b ≤ 1 := (ceilingOf_le_iff hb).2 (by omega)
    refine ⟨fun h => absurd h (by omega), fun _ => ⟨c, hc, ?_⟩⟩
    rw [KeepsCeiling, if_pos hlt]
    exact iff_of_true (by omega) trivial
  have hn := one_le_ceilingOf hb (show 0 < a by omega)
  rcases Nat.lt_or_ge 52 (a / b).log2 with hk | hk
  · rw [quotientCeiling?_coarse hb hab hk]
    refine ⟨fun h => if_pos h, fun h => ⟨_, if_neg (by omega), ?_⟩⟩
    have hd : 2 ≤ 2 ^ ((a / b).log2 - 52) := by
      calc 2 = 2 ^ 1 := rfl
        _ ≤ 2 ^ ((a / b).log2 - 52) := Nat.pow_le_pow_right (by decide) (by omega)
    have hiff := roundHalfEven_mul_eq_iff (a := a) hb (by omega) hd
    rw [KeepsCeiling, if_neg (by omega), if_neg (by omega), ← hiff]
    have hpos : 0 < roundHalfEven a (b * 2 ^ ((a / b).log2 - 52)) := by
      have hle : 2 ^ ((a / b).log2 - 52) * b ≤ a :=
        Nat.le_trans (Nat.mul_le_mul_right b (Nat.pow_le_pow_right (by decide) (Nat.sub_le ..)))
          (two_pow_log2_mul_le hb hab)
      rw [Nat.mul_comm] at hle
      rw [lt_roundHalfEven_iff (Nat.mul_pos hb (by omega))]
      omega
    have hone := Nat.mul_pos hpos (show 0 < 2 ^ ((a / b).log2 - 52) by omega)
    omega
  · obtain ⟨c, hc, hone, hiff⟩ := quotientCeiling?_fine hb hab hk
    have hbound : a < overflowBound * b := by
      refine Nat.lt_of_lt_of_le (lt_two_pow_log2_mul hb) (Nat.mul_le_mul_right b ?_)
      exact Nat.le_trans (Nat.pow_le_pow_right (by decide) (by omega)) hunit
    refine ⟨fun h => absurd h (by omega), fun _ => ⟨c, hc, ?_⟩⟩
    rw [← hiff]
    omega

/-- **Dividends below `2 ^ 53` keep the ceilings of their quotients.** -/
theorem keepsCeiling_of_lt (ha : a < 2 ^ 53) (hb : 0 < b) : KeepsCeiling a b := by
  unfold KeepsCeiling
  split
  · trivial
  next hab =>
  have hlow := two_pow_log2_mul_le hb (Nat.le_of_not_lt hab)
  obtain ⟨-, hpart⟩ := eq_add_lastPart hb (show 0 < a by omega)
  have hk : (a / b).log2 < 53 := by
    rw [← Nat.pow_lt_pow_iff_right (a := 2) (by decide)]
    exact Nat.lt_of_le_of_lt (Nat.le_mul_of_pos_right _ hb) (Nat.lt_of_le_of_lt hlow ha)
  rw [if_pos (by omega)]
  have hlt : b < 2 ^ (53 - (a / b).log2) := by
    refine Nat.lt_of_mul_lt_mul_left (a := 2 ^ (a / b).log2) (Nat.lt_of_le_of_lt hlow ?_)
    rwa [← Nat.pow_add, Nat.add_sub_cancel' (by omega)]
  exact .inl (Nat.lt_of_lt_of_le hlt (Nat.le_mul_of_pos_right _ hpart))

end Cases

end Number

/-! ## Pages of a listing -/

/-- The number of pages where rows are counted, and where rounding keeps that number. -/
theorem lastPage_cases (total : Nat) {perPage : Nat} (hp : 0 < perPage) :
    (Binary64.overflowBound * perPage ≤ total → lastPage total perPage = .error .overflow) ∧
      (total < Binary64.overflowBound * perPage → ∃ last : Nat,
        lastPage total perPage = .ok (last : Int) ∧ 1 ≤ last ∧
          (last = max (Number.ceilingOf total perPage) 1 ↔ Number.KeepsCeiling total perPage)) := by
  obtain ⟨hnone, hsome⟩ := Number.quotientCeiling?_cases total hp
  unfold lastPage
  rw [if_neg (by omega)]
  refine ⟨fun h => by rw [hnone h], fun h => ?_⟩
  obtain ⟨c, hc, hiff⟩ := hsome h
  refine ⟨max c 1, ?_, Nat.le_max_right .., hiff⟩
  rw [hc]
  show Except.ok (max (c : Int) 1) = .ok ((max c 1 : Nat) : Int)
  congr 1
  omega

theorem lt_overflowBound_mul {total perPage : Nat} (ht : total < 2 ^ 53) (hp : 0 < perPage) :
    total < Binary64.overflowBound * perPage :=
  Nat.lt_of_lt_of_le ht (Nat.le_trans (show 2 ^ 53 ≤ Binary64.overflowBound by decide +kernel)
    (Nat.le_mul_of_pos_right _ hp))

/-- **The number of pages is exact** for fewer than `2 ^ 53` rows. -/
theorem lastPage_eq {total perPage : Nat} (ht : total < 2 ^ 53) (hp : 0 < perPage) :
    lastPage total perPage = .ok (max (Number.ceilingOf total perPage) 1 : Nat) := by
  obtain ⟨last, hlast, -, hiff⟩ := (lastPage_cases total hp).2 (lt_overflowBound_mul ht hp)
  rw [hlast, hiff.2 (Number.keepsCeiling_of_lt ht hp)]

/-- There is a page after one exactly if there are rows after it. -/
theorem lt_pages_iff (total : Nat) {perPage page : Nat} (hp : 0 < perPage) (hpage : 0 < page) :
    page < max (Number.ceilingOf total perPage) 1 ↔ page * perPage < total := by
  have h := Number.ceilingOf_le_iff (a := total) (n := page) hp
  omega

/-- The number of pages is the least one that is not zero and holds all rows. -/
theorem isLeast_pages (total : Nat) {perPage : Nat} (hp : 0 < perPage) :
    IsLeast {n | 1 ≤ n ∧ total ≤ n * perPage} (max (Number.ceilingOf total perPage) 1) := by
  refine ⟨⟨Nat.le_max_right .., ?_⟩, fun n hn => ?_⟩
  · exact (Number.ceilingOf_le_iff hp).1 (Nat.le_max_left ..)
  · exact Nat.max_le.2 ⟨(Number.ceilingOf_le_iff hp).2 hn.2, hn.1⟩

end Listing
