import Listing.Calendar.Iso
import Listing.Proofs.Number.Digits
import Mathlib.Algebra.Group.Nat.Defs
import Mathlib.Data.List.TakeWhile

/-!
# Texts of dates and moments

A number that is padded to a width has that many digits, and they are read back whatever follows
(`Calendar.digits?_padded`). So a day of the calendar is read back from its text
(`Date.ofText?_toText`), and so is a moment whose distance from universal time is not known
(`Moment.ofText?_toText`), with a fraction of a second or without.
-/

namespace Listing

/-- A text in the characters of ASCII has an octet for each. -/
theorem Text.utf8ByteSize_ascii {cs : List Char} (h : ∀ c ∈ cs, c.toNat < 128) :
    (String.ofList cs).utf8ByteSize = cs.length := by
  induction cs with
  | nil => rfl
  | cons c cs ih =>
    have hc : (String.singleton c).utf8ByteSize = 1 := by
      rw [String.utf8ByteSize_singleton, Char.utf8Size_eq_one_iff]
      exact UInt32.le_iff_toNat_le.2 (Nat.le_of_lt_succ (h c (List.mem_cons_self ..)))
    rw [String.ofList_cons, String.utf8ByteSize_append, hc,
      ih fun d hd => h d (List.mem_cons_of_mem _ hd), List.length_cons, Nat.add_comm]

namespace Date

/-! ## Numbers of a width -/

theorem padded_eq (width n : Nat) : padded width n =
    List.replicate (width - (Text.natDigits n).length) '0' ++ Text.natDigits n := rfl

theorem padded_one {n : Nat} (h : n < 10) : padded 1 n = [Nat.digitChar n] := by
  rw [padded_eq, Text.natDigits, Nat.toDigits_of_lt_base h]
  rfl

/-- The last digit comes off the end. -/
theorem padded_succ (width n : Nat) :
    padded (width + 2) n = padded (width + 1) (n / 10) ++ [Nat.digitChar (n % 10)] := by
  rw [padded_eq, padded_eq, Text.natDigits, Text.natDigits]
  by_cases hn : n < 10
  · rw [Nat.toDigits_of_lt_base hn, Nat.div_eq_of_lt hn, Nat.mod_eq_of_lt hn,
      Nat.toDigits_of_lt_base (by decide)]
    simp [List.replicate_succ']
  · rw [Nat.toDigits_of_base_le (by decide) (Nat.not_lt.1 hn), List.length_append,
      List.length_singleton, Nat.add_sub_add_right (width + 1) 1, List.append_assoc]

theorem isAsciiDigit_of_mem_padded {width n : Nat} {c : Char} (h : c ∈ padded width n) :
    Text.isAsciiDigit c = true := by
  rcases List.mem_append.1 h with h | h
  · rw [List.eq_of_mem_replicate h]
    rfl
  · exact Text.isAsciiDigit_of_mem_natDigits h

theorem padded_ne_nil (width n : Nat) : padded width n ≠ [] :=
  List.append_ne_nil_of_right_ne_nil _ (Text.natDigits_ne_nil n)

theorem length_padded {width n : Nat} (h : n < 10 ^ (width + 1)) :
    (padded (width + 1) n).length = width + 1 := by
  induction width generalizing n with
  | zero => rw [padded_one (by simpa using h)]; rfl
  | succ width ih =>
    rw [padded_succ, List.length_append, ih (by rw [Nat.pow_succ] at h; omega)]
    rfl

/-- Zeros in front do not count. -/
theorem digitsValue_padded (width n : Nat) : Decimal.digitsValue (padded width n) = n := by
  rw [padded_eq, Number.digitsValue_zeros, Number.digitsValue_natDigits]

end Date

namespace Calendar

/-- **A number of a width is read back**, whatever follows. -/
theorem digits?_padded {width n : Nat} (h : n < 10 ^ (width + 1)) (rest : List Char) :
    digits? (width + 1) (Date.padded (width + 1) n ++ rest) = some (n, rest) := by
  have hlen := Date.length_padded h
  have hall : (Date.padded (width + 1) n).all Text.isAsciiDigit = true :=
    List.all_eq_true.2 fun c hc => Date.isAsciiDigit_of_mem_padded hc
  have hvalue : Text.ofDigits ((Date.padded (width + 1) n).map fun c => c.toNat - 48) = n := by
    rw [Text.ofDigits, List.foldl_map]
    exact Date.digitsValue_padded (width + 1) n
  unfold digits?
  rw [List.take_left' hlen, List.drop_left' hlen]
  simp only [hlen, hall, hvalue, decide_true, Bool.and_self, if_true]

end Calendar

namespace Date

/-- Is the date a day of the calendar? -/
def Exists (d : Date) : Prop := ofNumbers? d.year d.month d.day = some d

instance (d : Date) : Decidable d.Exists := inferInstanceAs (Decidable (_ = _))

theorem Exists.bounds {d : Date} (h : d.Exists) : 1 ≤ d.year ∧ d.year ≤ 9999 ∧ 1 ≤ d.month ∧
    d.month ≤ 12 ∧ 1 ≤ d.day ∧ d.day ≤ monthLength d.year d.month := by
  unfold Exists ofNumbers? at h
  split at h
  · next hd => simpa [and_assoc] using hd
  · cases h

theorem monthLength_le (year month : Nat) : monthLength year month ≤ 31 := by
  unfold monthLength
  split
  · split <;> omega
  · split <;> omega

/-- A number of a width begins with a digit. -/
theorem exists_padded_cons (width n : Nat) :
    ∃ c cs, padded width n = c :: cs ∧ Text.isAsciiDigit c = true := by
  obtain ⟨c, cs, hcs⟩ := List.exists_cons_of_ne_nil (padded_ne_nil width n)
  exact ⟨c, cs, hcs, isAsciiDigit_of_mem_padded (hcs ▸ List.mem_cons_self ..)⟩

theorem day?_toChars {d : Date} (h : d.Exists) (rest : List Char) :
    Calendar.day? (d.toChars ++ rest) = some d := by
  obtain ⟨-, hyear, -, hmonth, -, hday⟩ := h.bounds
  have hlength := monthLength_le d.year d.month
  have hyear' := @Calendar.digits?_padded 3 d.year (by omega)
  have hmonth' := @Calendar.digits?_padded 1 d.month (by omega)
  have hday' := @Calendar.digits?_padded 1 d.day (by omega)
  unfold Calendar.day? toChars
  simp only [List.append_assoc, List.cons_append, hyear', Option.bind_eq_bind, Option.bind_some,
    List.head?_cons, beq_self_eq_true, if_true, List.drop_one, List.tail_cons]
  split
  · -- the month begins with a digit, so this is no week date
    next heq =>
    obtain ⟨c, cs, hcs, hc⟩ := exists_padded_cons 2 d.month
    rw [hcs] at heq
    obtain ⟨rfl, -⟩ := List.cons.inj heq
    exact absurd hc (by decide)
  · simp only [hmonth', Option.bind_some, Calendar.hyphen?, Bool.not_true, Bool.false_eq_true,
      if_false, hday']
    exact h

theorem length_toChars {d : Date} (h : d.Exists) : d.toChars.length = 10 := by
  obtain ⟨-, hyear, -, hmonth, -, hday⟩ := h.bounds
  have hlength := monthLength_le d.year d.month
  have hyear' := @length_padded 3 d.year (by omega)
  have hmonth' := @length_padded 1 d.month (by omega)
  have hday' := @length_padded 1 d.day (by omega)
  simp [toChars, hyear', hmonth', hday']

theorem mem_toChars {d : Date} {c : Char} (h : c ∈ d.toChars) :
    Text.isAsciiDigit c = true ∨ c = '-' := by
  simp only [toChars, List.mem_append, List.mem_cons] at h
  rcases h with (h | rfl | h) | rfl | h
  all_goals first
    | exact .inl (isAsciiDigit_of_mem_padded h)
    | exact .inr rfl

theorem isAscii_of_mem_toChars {d : Date} {c : Char} (h : c ∈ d.toChars) : c.toNat < 128 := by
  rcases mem_toChars h with h | rfl
  · have := Text.isAsciiDigit_iff.1 h
    omega
  · decide

/-- **A day of the calendar is read back from its text.** -/
theorem ofText?_toText {d : Date} (h : d.Exists) : ofText? d.toText = some d := by
  have hsize : d.toText.utf8ByteSize = 10 := by
    rw [toText, Text.utf8ByteSize_ascii fun c => isAscii_of_mem_toChars, length_toChars h]
  have hday := day?_toChars h []
  rw [List.append_nil] at hday
  unfold ofText?
  rw [hsize, toText, String.toList_ofList, hday]
  rfl

end Date

namespace Moment

/-- Is the moment a time of a day of the calendar? -/
def Exists (m : Moment) : Prop :=
  m.date.Exists ∧ ofNumbers? m.date m.hour m.minute m.second m.micro m.offset = some m

instance (m : Moment) : Decidable m.Exists := inferInstanceAs (Decidable (_ ∧ _))

theorem Exists.bounds {m : Moment} (h : m.Exists) :
    m.hour < 24 ∧ m.minute < 60 ∧ m.second < 60 ∧ m.micro < 1000000 := by
  have hnumbers := h.2
  simp only [ofNumbers?, Option.ite_none_left_eq_some, Bool.or_eq_true, decide_eq_true_eq, not_or,
    Nat.not_le] at hnumbers
  obtain ⟨⟨⟨⟨⟨hhour, hminute⟩, hsecond⟩, hmicro⟩, -⟩, -⟩ := hnumbers
  exact ⟨hhour, hminute, hsecond, hmicro⟩

/-- The text of the time of day. -/
def timeChars (m : Moment) : List Char :=
  Date.padded 2 m.hour ++ ':' :: (Date.padded 2 m.minute ++
    ':' :: (Date.padded 2 m.second ++ fraction m.micro))

theorem toChars_eq {m : Moment} (h : m.offset = none) (separator : Char) :
    m.toChars separator = m.date.toChars ++ separator :: m.timeChars := by
  simp [toChars, timeChars, h]

theorem fraction?_padded {micro : Nat} (h : micro < 1000000) :
    Calendar.fraction? (Date.padded 6 micro) = some (micro, true) := by
  have hdigits := @Calendar.digits?_padded 5 micro (by omega) []
  rw [List.append_nil] at hdigits
  unfold Calendar.fraction?
  rw [Date.length_padded (by omega : micro < 10 ^ (5 + 1))]
  simp [hdigits, Calendar.isOver]

theorem continuation?_colon (width n : Nat) (rest : List Char) :
    Calendar.continuation? true (':' :: (Date.padded width n ++ rest)) =
      some (.number (Date.padded width n ++ rest)) := by
  unfold Calendar.continuation?
  simp [Date.padded_ne_nil]

theorem continuation?_point (width n : Nat) :
    Calendar.continuation? true ('.' :: Date.padded width n) =
      some (.fraction (Date.padded width n)) := by
  unfold Calendar.continuation?
  simp [Date.padded_ne_nil]

/-- **A time of day is read back from its text.** -/
theorem clock?_timeChars {m : Moment} (h : m.Exists) :
    Calendar.clock? m.timeChars = some ⟨m.hour, m.minute, m.second, m.micro, true⟩ := by
  obtain ⟨hhour, hminute, hsecond, hmicro⟩ := h.bounds
  have hhour' := @Calendar.digits?_padded 1 m.hour (by omega)
  have hminute' := @Calendar.digits?_padded 1 m.minute (by omega)
  have hsecond' := @Calendar.digits?_padded 1 m.second (by omega)
  unfold Calendar.clock? timeChars
  simp only [Nat.reduceAdd] at hhour' hminute' hsecond'
  simp only [hhour', Option.bind_eq_bind, Option.bind_some, List.head?_cons, beq_self_eq_true,
    continuation?_colon, hminute', hsecond']
  unfold fraction
  split
  · next hzero =>
    rw [hzero]
    rfl
  · simp only [continuation?_point, Option.bind_some, fraction?_padded hmicro]

theorem mem_timeChars {m : Moment} {c : Char} (h : c ∈ m.timeChars) :
    Text.isAsciiDigit c = true ∨ c = ':' ∨ c = '.' := by
  have hfraction : c ∈ fraction m.micro → Text.isAsciiDigit c = true ∨ c = ':' ∨ c = '.' := by
    unfold fraction
    split
    · exact nofun
    · intro hc
      rcases List.mem_cons.1 hc with rfl | hc
      · exact .inr (.inr rfl)
      · exact .inl (Date.isAsciiDigit_of_mem_padded hc)
  simp only [timeChars, List.mem_append, List.mem_cons] at h
  rcases h with h | rfl | h | rfl | h | h
  all_goals first
    | exact .inl (Date.isAsciiDigit_of_mem_padded h)
    | exact .inr (.inl rfl)
    | exact hfraction h

theorem isAscii_of_mem_timeChars {m : Moment} {c : Char} (h : c ∈ m.timeChars) : c.toNat < 128 := by
  rcases mem_timeChars h with h | rfl | rfl
  · have := Text.isAsciiDigit_iff.1 h
    omega
  · decide
  · decide

/-- No distance from universal time begins in a time of day. -/
theorem not_opensOffset_of_mem_timeChars {m : Moment} {c : Char} (h : c ∈ m.timeChars) :
    Calendar.opensOffset c = false := by
  rcases mem_timeChars h with h | rfl | rfl
  · have hc := Text.isAsciiDigit_iff.1 h
    simp only [Calendar.opensOffset, Bool.or_eq_false_iff, beq_eq_false_iff_ne]
    refine ⟨⟨?_, ?_⟩, ?_⟩ <;> rintro rfl <;> exact absurd hc (by decide)
  · rfl
  · rfl

theorem dayLength_toChars {d : Date} (h : d.Exists) (rest : List Char) :
    Calendar.dayLength (d.toChars ++ rest) = 10 := by
  have hyear : (Date.padded 4 d.year).length = 4 :=
    Date.length_padded (by have := h.bounds; omega)
  obtain ⟨c, cs, hcs, hc⟩ := Date.exists_padded_cons 2 d.month
  have hchars : d.toChars ++ rest =
      Date.padded 4 d.year ++ '-' :: c :: (cs ++ '-' :: Date.padded 2 d.day ++ rest) := by
    simp [Date.toChars, hcs]
  have hlength : (d.toChars ++ rest).length ≠ 7 := by
    rw [List.length_append, Date.length_toChars h]
    omega
  have hhyphen : (d.toChars ++ rest)[4]? = some '-' := by
    rw [hchars, List.getElem?_append_right (by omega), hyear]
    rfl
  have hmonth : (d.toChars ++ rest)[5]? = some c := by
    rw [hchars, List.getElem?_append_right (by omega), hyear]
    rfl
  have hweek : (some c == some 'W') = false := by
    rw [beq_eq_false_iff_ne]
    rintro ⟨⟩
    exact absurd hc (by decide)
  unfold Calendar.dayLength
  rw [if_neg hlength, hhyphen, hmonth, hweek]
  rfl

/-- **A moment is read back from its text** where its distance from universal time is not known. -/
theorem ofText?_toText {m : Moment} (h : m.Exists) (hoffset : m.offset = none) :
    ofText? (m.toText ' ') = some m := by
  have hlength := Date.length_toChars h.1
  have hlist : (m.toText ' ').toList = m.date.toChars ++ ' ' :: m.timeChars := by
    rw [toText, String.toList_ofList, toChars_eq hoffset]
  have hsize : ¬ (m.toText ' ').utf8ByteSize < 7 := by
    rw [toText, toChars_eq hoffset, Text.utf8ByteSize_ascii]
    · rw [List.length_append, hlength]
      omega
    · intro c hc
      rcases List.mem_append.1 hc with hc | hc
      · exact Date.isAscii_of_mem_toChars hc
      · rcases List.mem_cons.1 hc with rfl | hc
        · decide
        · exact isAscii_of_mem_timeChars hc
  have htake : (m.date.toChars ++ ' ' :: m.timeChars).take 10 = m.date.toChars :=
    List.take_left' hlength
  have hdrop : (m.date.toChars ++ ' ' :: m.timeChars).drop (10 + 1) = m.timeChars := by
    rw [← List.drop_drop, List.drop_left' hlength]
    rfl
  have hday : Calendar.day? m.date.toChars = some m.date := by
    have hday := Date.day?_toChars h.1 []
    rwa [List.append_nil] at hday
  have hopens : ∀ c ∈ m.timeChars, (!Calendar.opensOffset c) = true := fun c hc => by
    rw [not_opensOffset_of_mem_timeChars hc]
    rfl
  have hlong : ¬ (m.date.toChars ++ ' ' :: m.timeChars).length ≤ 10 := by
    rw [List.length_append, hlength, List.length_cons]
    omega
  have hdays : Calendar.dayLength (m.date.toChars ++ ' ' :: m.timeChars) = 10 :=
    dayLength_toChars h.1 _
  have hnumbers := h.2
  rw [hoffset] at hnumbers
  unfold ofText?
  simp only [hsize, if_false, hlist, hdays, htake, hdrop, hlong, hday, Option.bind_eq_bind,
    Option.bind_some, List.takeWhile_eq_self_iff.2 hopens, List.dropWhile_eq_nil_iff.2 hopens,
    clock?_timeChars h, if_true, hnumbers]

end Moment

end Listing
