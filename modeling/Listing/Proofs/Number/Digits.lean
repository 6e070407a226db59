import Listing.Proofs.Codec.QueryString
import Listing.Value.Text

/-!
# Texts of integers

An integer that has a text is read back from it: `Number.readInteger?_intText`. What is read from
digits alone, of whatever script, is no negative number (`Number.readInteger?_nonneg`), and some of
them are not read at all: `Number.readInteger?_eq_none_iff`.
-/

namespace Listing

namespace Text

/-! ## Digits of ASCII -/

theorem isAsciiDigit_iff {c : Char} : isAsciiDigit c = true ↔ 48 ≤ c.toNat ∧ c.toNat ≤ 57 := by
  simp only [isAsciiDigit, Bool.and_eq_true, decide_eq_true_eq, char_le_iff]
  exact Iff.rfl

theorem digitValue?_ascii {c : Char} (h : isAsciiDigit c = true) :
    digitValue? c = some (c.toNat - 48) := by
  obtain ⟨h₁, h₂⟩ := isAsciiDigit_iff.1 h
  rw [digitValue?, zeroDigits, List.find?_cons_of_pos]
  · rfl
  · simp only [Bool.and_eq_true, decide_eq_true_eq]
    omega

theorem isDigit_of_isAsciiDigit {c : Char} (h : isAsciiDigit c = true) : isDigit c = true := by
  rw [isDigit, digitValue?_ascii h]
  rfl

theorem isAsciiDigit_of_isDigit {c : Char} (h : c.isDigit = true) : isAsciiDigit c = true := by
  rw [isAsciiDigit_iff]
  simp only [Char.isDigit, Bool.and_eq_true, decide_eq_true_eq, ge_iff_le,
    UInt32.le_iff_toNat_le] at h
  exact h

theorem isAsciiDigit_of_mem_natDigits {n : Nat} {c : Char} (h : c ∈ natDigits n) :
    isAsciiDigit c = true :=
  isAsciiDigit_of_isDigit (Nat.isDigit_of_mem_toDigits (by decide) (by decide) h)

theorem natDigits_ne_nil (n : Nat) : natDigits n ≠ [] := Nat.toDigits_ne_nil

/-- Do the characters begin with no digit? -/
def EndsDigits (cs : List Char) : Prop := ∀ c, cs.head? = some c → isAsciiDigit c = false

theorem endsDigits_nil : EndsDigits [] := nofun

theorem takeWhile_digits {ds rest : List Char} (hds : ∀ c ∈ ds, isAsciiDigit c = true)
    (hrest : EndsDigits rest) :
    (ds ++ rest).takeWhile isAsciiDigit = ds ∧ (ds ++ rest).dropWhile isAsciiDigit = rest := by
  rw [List.takeWhile_append_of_pos hds, List.dropWhile_append_of_pos hds]
  cases rest with
  | nil => simp
  | cons c rest =>
    have hc : ¬ isAsciiDigit c = true := by
      rw [hrest c rfl]
      exact Bool.false_ne_true
    rw [List.takeWhile_cons_of_neg hc, List.dropWhile_cons_of_neg hc, List.append_nil]
    exact ⟨rfl, rfl⟩

/-- Only zero is written with a zero in front. -/
theorem head?_natDigits {n : Nat} (h : 0 < n) : (natDigits n).head? ≠ some '0' := by
  induction n using Nat.strongRecOn with
  | _ n ih =>
    by_cases hn : n < 10
    · rw [natDigits, Nat.toDigits_of_lt_base hn]
      simpa using Nat.pos_iff_ne_zero.1 h
    · rw [natDigits, Nat.toDigits_of_base_le (by decide) (Nat.not_lt.1 hn), List.head?_append]
      have hd : (Nat.toDigits 10 (n / 10)).head? ≠ some '0' := ih (n / 10) (by omega) (by omega)
      cases hh : (Nat.toDigits 10 (n / 10)).head? with
      | none => exact absurd (List.head?_eq_none_iff.1 hh) Nat.toDigits_ne_nil
      | some d => rwa [hh] at hd

/-! ## Digits of any script -/

/-- A digit is in the decimal system of a script, or in one of the ranges of digits in none. -/
theorem isDigit_iff {c : Char} : isDigit c = true ↔
    (∃ z ∈ zeroDigits, z ≤ c.toNat ∧ c.toNat < z + 10) ∨
      ∃ r ∈ loneDigitRanges, r.1 ≤ c.toNat ∧ c.toNat ≤ r.2 := by
  simp only [isDigit, digitValue?, Ranges.has, Ranges.covers, Bool.or_eq_true, Option.isSome_map,
    List.find?_isSome, List.any_eq_true, Bool.and_eq_true, decide_eq_true_eq]

theorem not_isBlank_of_isDigit {c : Char} (h : isDigit c = true) : isBlank c = false := by
  -- no range of digits meets a range of white space
  have hzeros : ∀ z ∈ zeroDigits, ∀ b ∈ blankRanges, b.2 < z ∨ z + 10 ≤ b.1 := by decide
  have hlone : ∀ r ∈ loneDigitRanges, ∀ b ∈ blankRanges, b.2 < r.1 ∨ r.2 < b.1 := by decide
  simp only [isBlank, Ranges.has, Ranges.covers, List.any_eq_false, Bool.and_eq_true,
    decide_eq_true_eq]
  intro b hb
  rcases isDigit_iff.1 h with ⟨z, hz, hc⟩ | ⟨r, hr, hc⟩
  · have := hzeros z hz b hb
    omega
  · have := hlone r hr b hb
    omega

theorem digitValue?_lt {c : Char} {d : Nat} (h : digitValue? c = some d) : d < 10 := by
  obtain ⟨z, hz, rfl⟩ := Option.map_eq_some_iff.1 h
  have hz := List.find?_some hz
  simp only [Bool.and_eq_true, decide_eq_true_eq] at hz
  omega

theorem isAsciiDigit_asciiDigit {d : Nat} (h : d < 10) : isAsciiDigit (asciiDigit d) = true := by
  have all : ∀ k : Fin 10, isAsciiDigit (asciiDigit k) = true := by decide
  exact all ⟨d, h⟩

theorem trim_eq_self {p : Char → Bool} {cs : List Char} (h : ∀ c ∈ cs, p c = false) :
    trim p cs = cs := by
  have hdrop : ∀ ds : List Char, (∀ c ∈ ds, p c = false) → ds.dropWhile p = ds := by
    intro ds hds
    cases ds with
    | nil => rfl
    | cons d ds => rw [List.dropWhile_cons, hds d (List.mem_cons_self ..)]; rfl
  rw [trim, hdrop cs h, hdrop _ fun c hc => h c (List.mem_reverse.1 hc), List.reverse_reverse]

end Text

theorem natText_toList (n : Nat) : (natText n).toList = Text.natDigits n := String.toList_ofList

/-- The characters of an integer: its digits, after a sign if it is negative. -/
theorem intText_toList (n : Int) :
    (intText n).toList = if n < 0 then '-' :: Text.natDigits n.natAbs else Text.natDigits n.natAbs := by
  rw [intText]
  split
  · rw [String.toList_append, natText_toList]
    rfl
  · exact natText_toList _

theorem intText_natCast (n : Nat) : intText n = natText n := by
  rw [intText, if_neg (by omega), Int.natAbs_natCast]

namespace Number

/-! ## Reading integers -/

theorem isPadding_ascii {c : Char} (h : 33 ≤ c.toNat ∧ c.toNat < 128) : isPadding c = false := by
  rw [isPadding, if_pos h.2]
  simp only [Bool.or_eq_false_iff, beq_eq_false_iff_ne, Bool.and_eq_false_iff,
    decide_eq_false_iff_not]
  constructor
  · rintro rfl
    exact absurd h.1 (by decide)
  · omega

theorem asciiForm_digit {c : Char} (h : Text.isAsciiDigit c = true) : Decimal.asciiForm c = c := by
  have hc := Text.isAsciiDigit_iff.1 h
  rw [Decimal.asciiForm, Text.digitValue?_ascii h]
  exact Utf8.char_ofNat_eq (by omega)

theorem dropUnderscores?_of_not_mem {cs : List Char} (h : '_' ∉ cs) (prior : Bool) :
    dropUnderscores? prior cs = some cs := by
  induction cs generalizing prior with
  | nil => rfl
  | cons c cs ih =>
    have hc : c ≠ '_' := fun he => h (he ▸ List.mem_cons_self ..)
    rw [dropUnderscores?, ih fun hm => h (List.mem_cons_of_mem _ hm)]
    · rfl
    · exact hc

theorem dropUnderscores?_digits {ds : List Char} (h : ∀ c ∈ ds, Text.isAsciiDigit c = true)
    (prior : Bool) : dropUnderscores? prior ds = some ds :=
  dropUnderscores?_of_not_mem (fun hm => absurd (h '_' hm) (by decide)) prior

theorem body_digits {ds : List Char} (h : ∀ c ∈ ds, Text.isAsciiDigit c = true) :
    (Text.trim isPadding ds).map Decimal.asciiForm = ds := by
  rw [Text.trim_eq_self fun c hc => isPadding_ascii (by have := Text.isAsciiDigit_iff.1 (h c hc); omega),
    List.map_congr_left fun c hc => asciiForm_digit (h c hc)]
  exact List.map_id ds

theorem body_negative {ds : List Char} (h : ∀ c ∈ ds, Text.isAsciiDigit c = true) :
    (Text.trim isPadding ('-' :: ds)).map Decimal.asciiForm = '-' :: ds := by
  rw [Text.trim_eq_self, List.map_cons, List.map_congr_left fun c hc => asciiForm_digit (h c hc)]
  · exact congrArg _ (List.map_id ds)
  · intro c hc
    obtain rfl | hc := List.mem_cons.1 hc
    · decide
    · exact isPadding_ascii (by have := Text.isAsciiDigit_iff.1 (h c hc); omega)

theorem splitSign_of_not_mem {cs : List Char} (hm : '-' ∉ cs) (hp : '+' ∉ cs) :
    Decimal.splitSign cs = (false, cs) := by
  rw [Decimal.splitSign.eq_def]
  split
  · exact absurd (List.mem_cons_self ..) hm
  · exact absurd (List.mem_cons_self ..) hp
  · rfl

theorem splitSign_digits {ds : List Char} (h : ∀ c ∈ ds, Text.isAsciiDigit c = true) :
    Decimal.splitSign ds = (false, ds) :=
  splitSign_of_not_mem (fun hm => absurd (h '-' hm) (by decide))
    fun hp => absurd (h '+' hp) (by decide)

theorem digitsValue_natDigits (n : Nat) : Decimal.digitsValue (Text.natDigits n) = n :=
  Nat.ofDigitChars_ten_toDigits

/-- Zeros in front do not count. -/
theorem digitsValue_zeros (n : Nat) (cs : List Char) :
    Decimal.digitsValue (List.replicate n '0' ++ cs) = Decimal.digitsValue cs := by
  induction n with
  | zero => rfl
  | succ n ih => exact ih

theorem length_natDigits_le {n : Nat} (h : n < integerLimit) :
    (Text.natDigits n).length ≤ maxDigits :=
  (Nat.length_toDigits_le_iff (by decide) (by decide)).2 h

/-- **An integer that has a text is read back from it.** -/
theorem readInteger?_intText {n : Int} (h : n.natAbs < integerLimit) :
    readInteger? (intText n) = some n := by
  have hd : ∀ c ∈ Text.natDigits n.natAbs, Text.isAsciiDigit c = true := fun c hc =>
    Text.isAsciiDigit_of_mem_natDigits hc
  have hall : (Text.natDigits n.natAbs).all Text.isAsciiDigit = true := List.all_eq_true.2 hd
  have hne : (Text.natDigits n.natAbs).isEmpty = false :=
    List.isEmpty_eq_false_iff.2 (Text.natDigits_ne_nil _)
  have hlen : ¬ maxDigits < (Text.natDigits n.natAbs).length :=
    Nat.not_lt.2 (length_natDigits_le h)
  rw [readInteger?, body, intText_toList]
  by_cases hn : n < 0
  · rw [if_pos hn, body_negative hd, Decimal.splitSign]
    simp only [dropUnderscores?_digits hd, Option.bind_some, hne, hall, hlen, digitsValue_natDigits]
    simp only [Bool.not_true, Bool.or_self, decide_false, Bool.false_eq_true, if_false, if_true]
    congr 1
    omega
  · rw [if_neg hn, body_digits hd, splitSign_digits hd]
    simp only [dropUnderscores?_digits hd, Option.bind_some, hne, hall, hlen, digitsValue_natDigits]
    simp only [Bool.not_true, Bool.or_self, decide_false, Bool.false_eq_true, if_false]
    congr 1
    omega

/-! ## Reading digits of any script -/

theorem isBlank_of_isPadding {c : Char} (h : isPadding c = true) : Text.isBlank c = true := by
  rw [isPadding] at h
  split at h
  · simp only [Bool.or_eq_true, beq_iff_eq, Bool.and_eq_true, decide_eq_true_eq] at h
    rcases h with rfl | h
    · decide
    · simp only [Text.isBlank, Text.Ranges.has, Text.Ranges.covers, List.any_eq_true,
        Bool.and_eq_true, decide_eq_true_eq]
      exact ⟨(9, 13), by decide, h⟩
  · exact h

theorem not_isPadding_of_not_isBlank {c : Char} (h : Text.isBlank c = false) : isPadding c = false := by
  rw [← Bool.not_eq_true] at h ⊢
  exact mt isBlank_of_isPadding h

theorem not_isPadding_of_isDigit {c : Char} (h : Text.isDigit c = true) : isPadding c = false :=
  not_isPadding_of_not_isBlank (Text.not_isBlank_of_isDigit h)

/-- A character looks like one of the ten digits exactly if it is in a decimal system. -/
theorem isAsciiDigit_asciiForm (c : Char) :
    Text.isAsciiDigit (Decimal.asciiForm c) = (Text.digitValue? c).isSome := by
  rw [Decimal.asciiForm]
  cases hv : Text.digitValue? c with
  | some d => exact Text.isAsciiDigit_asciiDigit (Text.digitValue?_lt hv)
  | none =>
    cases ha : Text.isAsciiDigit c with
    | false => rfl
    | true =>
      rw [Text.digitValue?_ascii ha] at hv
      cases hv

theorem isDigit_asciiForm {c : Char} (h : Text.isDigit c = true) :
    Text.isDigit (Decimal.asciiForm c) = true := by
  rw [Decimal.asciiForm]
  cases hv : Text.digitValue? c with
  | some d =>
    exact Text.isDigit_of_isAsciiDigit (Text.isAsciiDigit_asciiDigit (Text.digitValue?_lt hv))
  | none => exact h

/-- Digits are without white space around them. -/
theorem body_of_isDigit {s : String} (hs : s.toList.all Text.isDigit = true) :
    body s = s.toList.map Decimal.asciiForm := by
  rw [body, Text.trim_eq_self fun c hc => not_isPadding_of_isDigit (List.all_eq_true.1 hs c hc)]

/-- Digits look like digits, neither like signs nor like underscores. -/
theorem not_mem_body {s : String} (hs : s.toList.all Text.isDigit = true) {x : Char}
    (hx : Text.isDigit x = false) : x ∉ body s := by
  rw [body_of_isDigit hs]
  intro hm
  obtain ⟨c, hc, rfl⟩ := List.mem_map.1 hm
  rw [isDigit_asciiForm (List.all_eq_true.1 hs c hc)] at hx
  cases hx

/-- Digits of any script are read as the number that the ten digits in their places write. -/
theorem readInteger?_of_isDigit {s : String} (hs : s.toList.all Text.isDigit = true) :
    readInteger? s =
      if (body s).isEmpty || !(body s).all Text.isAsciiDigit || maxDigits < (body s).length then none
      else some (Decimal.digitsValue (body s) : Int) := by
  have hminus := not_mem_body hs (x := '-') (by decide)
  have hplus := not_mem_body hs (x := '+') (by decide)
  have hunder := not_mem_body hs (x := '_') (by decide)
  rw [readInteger?, splitSign_of_not_mem hminus hplus]
  simp only [dropUnderscores?_of_not_mem hunder, Option.bind_some, Bool.false_eq_true, if_false]

/-- What digits of any script are read as is no negative number. -/
theorem readInteger?_nonneg {s : String} (hs : s.toList.all Text.isDigit = true) {n : Int}
    (h : readInteger? s = some n) : 0 ≤ n := by
  rw [readInteger?_of_isDigit hs] at h
  split at h
  · cases h
  · obtain rfl := Option.some.inj h
    omega

/-- Digits write a number below the power of ten of how many they are. -/
theorem digitsValue_lt {cs : List Char} (h : cs.all Text.isAsciiDigit = true) :
    Decimal.digitsValue cs < Nat.pow 10 cs.length := by
  have hfold : ∀ (cs : List Char) (n : Nat), cs.all Text.isAsciiDigit = true →
      cs.foldl (fun n c => 10 * n + (c.toNat - 48)) n < (n + 1) * Nat.pow 10 cs.length := by
    intro cs
    induction cs with
    | nil => simp
    | cons c cs ih =>
      intro n h
      rw [List.all_cons, Bool.and_eq_true] at h
      have hc := Text.isAsciiDigit_iff.1 h.1
      have hstep : 10 * n + (c.toNat - 48) + 1 ≤ (n + 1) * 10 := by omega
      calc _ < (10 * n + (c.toNat - 48) + 1) * Nat.pow 10 cs.length := ih _ h.2
        _ ≤ (n + 1) * 10 * Nat.pow 10 cs.length := Nat.mul_le_mul_right _ hstep
        _ = (n + 1) * Nat.pow 10 (c :: cs).length := by
          rw [Nat.mul_assoc, Nat.mul_comm 10]
          rfl
  have hlt := hfold cs 0 h
  rw [Nat.zero_add, Nat.one_mul] at hlt
  exact hlt

/-- What few digits of any script are read as is small. -/
theorem readInteger?_lt {s : String} (hs : s.toList.all Text.isDigit = true) {n : Int}
    (h : readInteger? s = some n) : n < Nat.pow 10 s.length := by
  rw [readInteger?_of_isDigit hs] at h
  split at h
  · cases h
  · next hdigits =>
    obtain rfl := Option.some.inj h
    simp only [Bool.or_eq_true, not_or, Bool.not_eq_true, Bool.not_eq_false'] at hdigits
    have hlt := digitsValue_lt hdigits.1.2
    rw [body_of_isDigit hs, List.length_map, String.length_toList] at hlt
    rw [body_of_isDigit hs]
    exact_mod_cast hlt

/-- **Digits are no number** if one of them is in no decimal system, or if they are too many. -/
theorem readInteger?_eq_none_iff {s : String} (hne : s.toList ≠ [])
    (hs : s.toList.all Text.isDigit = true) : readInteger? s = none ↔
      (∃ c ∈ s.toList, Text.digitValue? c = none) ∨ maxDigits < s.toList.length := by
  have hall : (body s).all Text.isAsciiDigit =
      s.toList.all fun c => (Text.digitValue? c).isSome := by
    rw [body_of_isDigit hs, List.all_map]
    exact List.all_congr rfl isAsciiDigit_asciiForm
  have hnone : (s.toList.all fun c => (Text.digitValue? c).isSome) = false ↔
      ∃ c ∈ s.toList, Text.digitValue? c = none := by
    simp
  have hempty : (s.toList.map Decimal.asciiForm).isEmpty = false := by simpa using hne
  rw [readInteger?_of_isDigit hs, hall, body_of_isDigit hs, hempty, List.length_map, ← hnone]
  cases s.toList.all fun c => (Text.digitValue? c).isSome <;> simp

end Number

end Listing
