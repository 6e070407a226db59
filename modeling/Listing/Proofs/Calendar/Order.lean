import Listing.Proofs.Calendar.Text
import Listing.Relational.Cell
import Mathlib.Order.Compare

/-!
# The order of dates and moments as texts

A database keeps dates and moments as texts and compares them as such. Numbers of one width compare as
texts like numbers (`Date.compare_padded`), the number of a day grows with year, month and day
(`Date.compare_dayNumber`), and so days compare as their texts do (`Date.compare_toChars`), and moments
(`Moment.compare_momentText`).
-/

namespace Listing

open Std

/-- Texts compare by their first characters, and then by the rest. -/
theorem Text.compare_cons (a b : Char) (s t : List Char) :
    Ord.compare (String.ofList (a :: s)) (String.ofList (b :: t)) =
      (Ord.compare a b).then (Ord.compare (String.ofList s) (String.ofList t)) := by
  have hless : ∀ s t : String, s < t ↔ s.toList < t.toList := fun _ _ => Iff.rfl
  have hlt : String.ofList (a :: s) < String.ofList (b :: t) ↔
      a < b ∨ a = b ∧ String.ofList s < String.ofList t := by
    simp only [hless, String.toList_ofList, List.cons_lt_cons_iff]
  have heq : String.ofList (a :: s) = String.ofList (b :: t) ↔
      a = b ∧ String.ofList s = String.ofList t := by
    simp only [String.ofList_inj, List.cons.injEq]
  have hcompare : ∀ s t : String, Ord.compare s t = if s < t then .lt else if s = t then .eq else .gt :=
    fun _ _ => rfl
  have hchars : Ord.compare a b = if a < b then .lt else if a = b then .eq else .gt := rfl
  rw [hcompare, hcompare, hchars]
  simp only [hlt, heq]
  by_cases hab : a < b
  · simp [hab]
  · by_cases he : a = b
    · simp [he]
    · simp [hab, he]

theorem Text.compare_append (cs s t : List Char) :
    Ord.compare (String.ofList (cs ++ s)) (String.ofList (cs ++ t)) =
      Ord.compare (String.ofList s) (String.ofList t) := by
  induction cs with
  | nil => rfl
  | cons c cs ih =>
    rw [List.cons_append, List.cons_append, compare_cons, ih, compare_self]
    rfl

/-- Numbers compare by their multiples, and then by the rests. -/
theorem compare_mul_add {k r s : Nat} (hr : r < k) (hs : s < k) (a b : Nat) :
    Ord.compare (a * k + r) (b * k + s) = (Ord.compare a b).then (Ord.compare r s) := by
  have hless : ∀ {a b r : Nat}, r < k → ∀ s, a < b → a * k + r < b * k + s := by
    intro a b r hr s hab
    have hle : (a + 1) * k ≤ b * k := Nat.mul_le_mul_right k hab
    rw [Nat.add_mul, Nat.one_mul] at hle
    omega
  rcases Nat.lt_trichotomy a b with h | h | h
  · rw [Nat.compare_eq_lt.2 h, Nat.compare_eq_lt.2 (hless hr s h)]
    rfl
  · rw [h, compare_self, Ordering.eq_then]
    simp only [Nat.compare_eq_ite_lt, Nat.add_lt_add_iff_left]
  · rw [Nat.compare_eq_gt.2 h, Nat.compare_eq_gt.2 (hless hs r h)]
    rfl

namespace Date

theorem compare_digitChar {m n : Nat} (hm : m < 10) (hn : n < 10) :
    Ord.compare (Nat.digitChar m) (Nat.digitChar n) = Ord.compare m n := by
  have all : ∀ m n : Fin 10, Ord.compare (Nat.digitChar m) (Nat.digitChar n) =
      Ord.compare (m : Nat) (n : Nat) := by decide
  exact all ⟨m, hm⟩ ⟨n, hn⟩

/-- Numbers compare by their tens, and then by their last digits. -/
theorem compare_div_mod (m n : Nat) :
    (Ord.compare (m / 10) (n / 10)).then (Ord.compare (m % 10) (n % 10)) = Ord.compare m n := by
  rw [← compare_mul_add (Nat.mod_lt m (by decide)) (Nat.mod_lt n (by decide)), Nat.div_add_mod',
    Nat.div_add_mod']

/-- **Numbers of one width compare as texts like numbers.** -/
theorem compare_padded {width m n : Nat} (hm : m < 10 ^ (width + 1)) (hn : n < 10 ^ (width + 1))
    (s t : List Char) :
    Ord.compare (String.ofList (padded (width + 1) m ++ s))
        (String.ofList (padded (width + 1) n ++ t)) =
      (Ord.compare m n).then (Ord.compare (String.ofList s) (String.ofList t)) := by
  induction width generalizing m n s t with
  | zero =>
    have hm : m < 10 := by simpa using hm
    have hn : n < 10 := by simpa using hn
    rw [padded_one hm, padded_one hn, List.singleton_append, List.singleton_append,
      Text.compare_cons, compare_digitChar hm hn]
  | succ width ih =>
    rw [Nat.pow_succ] at hm hn
    rw [padded_succ, padded_succ, List.append_assoc, List.append_assoc, ih (by omega) (by omega),
      List.singleton_append, List.singleton_append, Text.compare_cons,
      compare_digitChar (Nat.mod_lt _ (by decide)) (Nat.mod_lt _ (by decide)), ← compare_div_mod m n,
      Ordering.then_assoc]

/-! ## The number of a day -/

theorem daysBeforeMonth_succ (year month : Nat) : daysBeforeMonth year (month + 2) =
    daysBeforeMonth year (month + 1) + monthLength year (month + 1) := by
  unfold daysBeforeMonth
  rw [Nat.add_sub_cancel, show month + 2 - 1 = month + 1 from rfl, List.range_succ,
    List.foldl_append]
  rfl

theorem daysBeforeMonth_le (year : Nat) {m n : Nat} (h : m ≤ n) :
    daysBeforeMonth year (m + 1) ≤ daysBeforeMonth year (n + 1) := by
  induction h with
  | refl => exact Nat.le_refl _
  | step _ ih =>
    rw [daysBeforeMonth_succ]
    omega

/-- A year is over when its twelve months are. -/
theorem daysBeforeYear_succ {year : Nat} (h : 1 ≤ year) :
    daysBeforeYear (year + 1) = daysBeforeYear year + daysBeforeMonth year 13 := by
  have hmonths : daysBeforeMonth year 13 = if isLeap year then 366 else 365 := by
    unfold daysBeforeMonth monthLength
    cases isLeap year <;> rfl
  obtain ⟨y, rfl⟩ := Nat.exists_eq_add_of_le' h
  rw [hmonths]
  simp only [daysBeforeYear, isLeap, Nat.add_sub_cancel, Nat.succ_div, Nat.dvd_iff_mod_eq_zero,
    Bool.and_eq_true, Bool.or_eq_true, beq_iff_eq, bne_iff_ne]
  have h4 : (y + 1) % 100 = 0 → (y + 1) % 4 = 0 := by omega
  have h100 : (y + 1) % 400 = 0 → (y + 1) % 100 = 0 := by omega
  have hle : y / 100 ≤ y / 4 := Nat.div_le_div_left (by decide) (by decide)
  -- no more is needed of the quotients and the remainders
  generalize (y + 1) % 4 = r, (y + 1) % 100 = s, (y + 1) % 400 = t at h4 h100 ⊢
  generalize y / 4 = a, y / 100 = b, y / 400 = c at hle ⊢
  split_ifs <;> omega

theorem daysBeforeYear_le {y z : Nat} (hy : 1 ≤ y) (h : y ≤ z) :
    daysBeforeYear y ≤ daysBeforeYear z := by
  induction h with
  | refl => exact Nat.le_refl _
  | @step z h ih =>
    rw [daysBeforeYear_succ (Nat.le_trans hy h)]
    omega

/-- A day comes before the months after its own, and within its year. -/
theorem Exists.dayNumber_le {d : Date} (h : d.Exists) {month : Nat} (hmonth : d.month < month) :
    d.dayNumber ≤ daysBeforeYear d.year + daysBeforeMonth d.year month := by
  obtain ⟨-, -, hone, -, -, hday⟩ := h.bounds
  obtain ⟨m, hm⟩ := Nat.exists_eq_add_of_le' hone
  obtain ⟨n, rfl⟩ := Nat.exists_eq_add_of_le' (Nat.le_of_lt (Nat.lt_of_le_of_lt hone hmonth))
  have hle := daysBeforeMonth_le d.year (show m + 1 ≤ n by omega)
  rw [daysBeforeMonth_succ] at hle
  unfold dayNumber
  rw [hm] at hday ⊢
  omega

/-- **The number of a day grows with the year, the month and the day.** -/
theorem compare_dayNumber {d e : Date} (hd : d.Exists) (he : e.Exists) :
    Ord.compare d.dayNumber e.dayNumber = (Ord.compare d.year e.year).then
      ((Ord.compare d.month e.month).then (Ord.compare d.day e.day)) := by
  have hlater : ∀ {d e : Date}, d.Exists → e.Exists → d.year < e.year →
      d.dayNumber < e.dayNumber := by
    intro d e hd he h
    have hend := hd.dayNumber_le (Nat.lt_succ_of_le hd.bounds.2.2.2.1)
    rw [← daysBeforeYear_succ hd.bounds.1] at hend
    have hyears : daysBeforeYear (d.year + 1) ≤ daysBeforeYear e.year :=
      daysBeforeYear_le (Nat.le_add_left 1 d.year) h
    have hday := he.bounds.2.2.2.2.1
    unfold dayNumber at hend ⊢
    omega
  have hmonths : ∀ {d e : Date}, d.Exists → e.Exists → d.year = e.year → d.month < e.month →
      d.dayNumber < e.dayNumber := by
    intro d e hd he hyear h
    have hend := hd.dayNumber_le h
    have hday := he.bounds.2.2.2.2.1
    rw [hyear] at hend
    unfold dayNumber at hend ⊢
    omega
  rcases Nat.lt_trichotomy d.year e.year with h | h | h
  · rw [Nat.compare_eq_lt.2 h, Nat.compare_eq_lt.2 (hlater hd he h)]
    rfl
  · rw [Nat.compare_eq_eq.2 h, Ordering.eq_then]
    rcases Nat.lt_trichotomy d.month e.month with hm | hm | hm
    · rw [Nat.compare_eq_lt.2 hm, Nat.compare_eq_lt.2 (hmonths hd he h hm)]
      rfl
    · rw [Nat.compare_eq_eq.2 hm, Ordering.eq_then]
      unfold dayNumber
      rw [h, hm]
      simp only [Nat.compare_eq_ite_lt, Nat.add_lt_add_iff_left]
    · rw [Nat.compare_eq_gt.2 hm, Nat.compare_eq_gt.2 (hmonths he hd h.symm hm)]
      rfl
  · rw [Nat.compare_eq_gt.2 h, Nat.compare_eq_gt.2 (hlater he hd h)]
    rfl

/-- **Days compare as their texts do**, whatever follows these. -/
theorem compare_toChars {d e : Date} (hd : d.Exists) (he : e.Exists) (s t : List Char) :
    Ord.compare (String.ofList (d.toChars ++ s)) (String.ofList (e.toChars ++ t)) =
      (Ord.compare d.dayNumber e.dayNumber).then
        (Ord.compare (String.ofList s) (String.ofList t)) := by
  have hb := hd.bounds
  have hc := he.bounds
  have hdays := monthLength_le d.year d.month
  have hdays' := monthLength_le e.year e.month
  have hyear := @compare_padded 3 d.year e.year (by omega) (by omega)
  have hmonth := @compare_padded 1 d.month e.month (by omega) (by omega)
  have hday := @compare_padded 1 d.day e.day (by omega) (by omega)
  have hhyphen := Text.compare_append ['-']
  simp only [List.singleton_append] at hhyphen
  rw [compare_dayNumber hd he]
  simp only [toChars, List.append_assoc, List.cons_append, Ordering.then_assoc]
  rw [hyear, hhyphen, hmonth, hhyphen, hday]

end Date

namespace Moment

/-- The microseconds of a moment, its numbers one after the other. -/
theorem instant_eq {m : Moment} (hoffset : m.offset = none) : m.instant =
    (((((m.date.dayNumber - 1) * 24 + m.hour) * 60 + m.minute) * 60 + m.second) * 1000000 +
      m.micro : Nat) := by
  simp only [instant, hoffset, Option.getD_none, microsPerDay, microsPerSecond]
  omega

/-- **A moment compares by its day, and then by the time of day.** -/
theorem Exists.compare_instant {m n : Moment} (hm : m.Exists) (hn : n.Exists)
    (hoffset : m.offset = none) (hoffset' : n.offset = none) :
    Ord.compare m.instant n.instant =
      (Ord.compare m.date.dayNumber n.date.dayNumber).then ((Ord.compare m.hour n.hour).then
        ((Ord.compare m.minute n.minute).then ((Ord.compare m.second n.second).then
          (Ord.compare m.micro n.micro)))) := by
  obtain ⟨hhour, hminute, hsecond, hmicro⟩ := hm.bounds
  obtain ⟨hhour', hminute', hsecond', hmicro'⟩ := hn.bounds
  have hday : 1 ≤ m.date.dayNumber := Nat.le_add_left_of_le hm.1.bounds.2.2.2.2.1
  have hday' : 1 ≤ n.date.dayNumber := Nat.le_add_left_of_le hn.1.bounds.2.2.2.2.1
  have hdays : Ord.compare (m.date.dayNumber - 1) (n.date.dayNumber - 1) =
      Ord.compare m.date.dayNumber n.date.dayNumber := by
    obtain ⟨i, hi⟩ := Nat.exists_eq_add_of_le' hday
    obtain ⟨j, hj⟩ := Nat.exists_eq_add_of_le' hday'
    simp only [hi, hj, Nat.add_sub_cancel, Nat.compare_eq_ite_lt, Nat.add_lt_add_iff_right]
  have hcast : ∀ x y : Nat, Ord.compare (x : Int) (y : Int) = Ord.compare x y := by
    intro x y
    simp only [Ord.compare, compareOfLessAndEq, Int.ofNat_lt, Int.ofNat_inj]
  rw [instant_eq hoffset, instant_eq hoffset', hcast, compare_mul_add hmicro hmicro',
    compare_mul_add hsecond hsecond', compare_mul_add hminute hminute', compare_mul_add hhour hhour',
    hdays]
  simp only [Ordering.then_assoc]

theorem momentText_eq (m : Moment) : Cell.momentText m = String.ofList (m.date.toChars ++ ' ' ::
    (Date.padded 2 m.hour ++ ':' :: (Date.padded 2 m.minute ++ ':' :: (Date.padded 2 m.second ++
      '.' :: (Date.padded 6 m.micro ++ []))))) := by
  simp [Cell.momentText, toChars, fraction]

/-- **Moments compare as their texts do** where their distance from universal time is not known. -/
theorem compare_momentText {m n : Moment} (hm : m.Exists) (hn : n.Exists) (hoffset : m.offset = none)
    (hoffset' : n.offset = none) :
    Ord.compare (Cell.momentText m) (Cell.momentText n) = Ord.compare m.instant n.instant := by
  obtain ⟨hhour, hminute, hsecond, hmicro⟩ := hm.bounds
  obtain ⟨hhour', hminute', hsecond', hmicro'⟩ := hn.bounds
  have hhours := @Date.compare_padded 1 m.hour n.hour (by omega) (by omega)
  have hminutes := @Date.compare_padded 1 m.minute n.minute (by omega) (by omega)
  have hseconds := @Date.compare_padded 1 m.second n.second (by omega) (by omega)
  have hmicros := @Date.compare_padded 5 m.micro n.micro (by omega) (by omega)
  have hmark : ∀ c s t, Ord.compare (String.ofList (c :: s)) (String.ofList (c :: t)) =
      Ord.compare (String.ofList s) (String.ofList t) := fun c => Text.compare_append [c]
  rw [hm.compare_instant hn hoffset hoffset', momentText_eq, momentText_eq,
    Date.compare_toChars hm.1 hn.1, hmark, hhours, hmark, hminutes, hmark, hseconds, hmark, hmicros]
  simp

end Moment

end Listing
