import Listing.Proofs.Number.Digits
import Mathlib.Data.List.TakeWhile

/-!
# Texts of decimals

A decimal that is a number, within the limits of its digits, is read back from its text with the digits
that it has: `Decimal.ofText?_toText`. The text is positional, with zeros in front where the digits do
not reach the point, or has one digit in front of the point and an exponent; either is a run of digits,
perhaps a point and more digits, and perhaps an exponent (`Decimal.scaled?_point`, `Decimal.scaled?_whole`).
-/

namespace Listing.Decimal

/-- Is the decimal a number, within the limits of its digits? -/
def IsNumber : Decimal → Prop
  | .finite negative c e => finite? negative c e = some (.finite negative c e)
  | .infinite _ => True
  | .nan _ _ _ => False

instance : (d : Decimal) → Decidable d.IsNumber
  | .finite _ _ _ => inferInstanceAs (Decidable (_ = _))
  | .infinite _ => inferInstanceAs (Decidable True)
  | .nan _ _ _ => inferInstanceAs (Decidable False)

/-! ## Runs of digits -/

section Digits

variable {ds rest fraction : List Char} {x : Int}

/-- Digits without a point. -/
theorem scaled?_whole (hds : ∀ c ∈ ds, Text.isAsciiDigit c = true) (hne : ds ≠ [])
    (hrest : Text.EndsDigits rest) (hpoint : rest.head? ≠ some '.') (hx : exponent? rest = some x) :
    scaled? (ds ++ rest) = some (digitsValue ds, x) := by
  obtain ⟨htake, hdrop⟩ := Text.takeWhile_digits hds hrest
  unfold scaled?
  rw [htake, hdrop]
  cases rest with
  | nil => simp [hne, hx]
  | cons c rest =>
    have hc : c ≠ '.' := fun h => hpoint (congrArg some h)
    simp [hne, hx, hc]

/-- Digits before a point and after it. -/
theorem scaled?_point (hds : ∀ c ∈ ds, Text.isAsciiDigit c = true) (hne : ds ≠ [])
    (hfraction : ∀ c ∈ fraction, Text.isAsciiDigit c = true) (hrest : Text.EndsDigits rest)
    (hx : exponent? rest = some x) :
    scaled? (ds ++ '.' :: (fraction ++ rest)) =
      some (digitsValue (ds ++ fraction), x - fraction.length) := by
  have hpoint : Text.EndsDigits ('.' :: (fraction ++ rest)) := by
    rintro c ⟨⟩
    rfl
  obtain ⟨htake, hdrop⟩ := Text.takeWhile_digits hds hpoint
  obtain ⟨htake', hdrop'⟩ := Text.takeWhile_digits hfraction hrest
  unfold scaled?
  rw [htake, hdrop]
  simp [hne, htake', hdrop', hx]

end Digits

/-- An exponent is read back. -/
theorem exponent?_natDigits (x : Int) :
    exponent? ('E' :: (if x < 0 then '-' else '+') :: Text.natDigits x.natAbs) = some x := by
  have hdigits : (Text.natDigits x.natAbs).all Text.isAsciiDigit = true :=
    List.all_eq_true.2 fun c => Text.isAsciiDigit_of_mem_natDigits
  have hne : (Text.natDigits x.natAbs).isEmpty = false :=
    List.isEmpty_eq_false_iff.2 (Text.natDigits_ne_nil _)
  by_cases hneg : x < 0
  · have hread : exponent? ('E' :: '-' :: Text.natDigits x.natAbs) = some (-(x.natAbs : Int)) := by
      simp only [exponent?, splitSign, hne, hdigits, Number.digitsValue_natDigits]
      rfl
    rw [if_pos hneg, hread, show -(x.natAbs : Int) = x by omega]
  · have hread : exponent? ('E' :: '+' :: Text.natDigits x.natAbs) = some (x.natAbs : Int) := by
      simp only [exponent?, splitSign, hne, hdigits, Number.digitsValue_natDigits]
      rfl
    rw [if_neg hneg, hread, show (x.natAbs : Int) = x by omega]

/-! ## The two forms of a text -/

theorem zero_digits : ∀ c ∈ ['0'], Text.isAsciiDigit c = true := List.all_eq_true.1 rfl

theorem natDigits_digits (n : Nat) : ∀ c ∈ Text.natDigits n, Text.isAsciiDigit c = true :=
  fun _ => Text.isAsciiDigit_of_mem_natDigits

theorem exponent?_nil : exponent? [] = some 0 := rfl

/-- Digits that do not reach the point stand after zeros. -/
theorem scaled?_zeros {c n : Nat} (hlong : (Text.natDigits c).length ≤ n) :
    scaled? (['0'] ++ '.' :: (List.replicate (n - (Text.natDigits c).length) '0' ++
      Text.natDigits c)) = some (c, -(n : Int)) := by
  have hzeros : ∀ d ∈ List.replicate (n - (Text.natDigits c).length) '0' ++ Text.natDigits c,
      Text.isAsciiDigit d = true := by
    intro d hd
    rcases List.mem_append.1 hd with hd | hd
    · rw [List.eq_of_mem_replicate hd]
      rfl
    · exact natDigits_digits c d hd
  have hpoint := scaled?_point zero_digits (List.cons_ne_nil '0' []) hzeros Text.endsDigits_nil
    exponent?_nil
  have hlength : (List.replicate (n - (Text.natDigits c).length) '0' ++ Text.natDigits c).length =
      n := by
    rw [List.length_append, List.length_replicate]
    omega
  have hfront : digitsValue (['0'] ++ (List.replicate (n - (Text.natDigits c).length) '0' ++
      Text.natDigits c)) = c :=
    (Number.digitsValue_zeros 1 _).trans
      ((Number.digitsValue_zeros _ _).trans (Number.digitsValue_natDigits c))
  rw [hfront, hlength, List.append_nil, Int.zero_sub] at hpoint
  exact hpoint

/-- Digits that reach over the point are split by it. -/
theorem scaled?_split {c n : Nat} (hlong : n < (Text.natDigits c).length) :
    scaled? ((Text.natDigits c).take ((Text.natDigits c).length - n) ++
      '.' :: (Text.natDigits c).drop ((Text.natDigits c).length - n)) = some (c, -(n : Int)) := by
  have hdigits := natDigits_digits c
  have htake : (Text.natDigits c).take ((Text.natDigits c).length - n) ≠ [] := by
    rw [← List.length_pos_iff, List.length_take]
    omega
  have hlength : ((Text.natDigits c).drop ((Text.natDigits c).length - n)).length = n := by
    rw [List.length_drop]
    omega
  have hdrop : ∀ d ∈ (Text.natDigits c).drop ((Text.natDigits c).length - n),
      Text.isAsciiDigit d = true := fun d hd => hdigits d (List.mem_of_mem_drop hd)
  have hpoint := scaled?_point (fun d hd => hdigits d (List.mem_of_mem_take hd)) htake hdrop
    Text.endsDigits_nil exponent?_nil
  rw [List.take_append_drop, Number.digitsValue_natDigits, hlength, List.append_nil,
    Int.zero_sub] at hpoint
  exact hpoint

/-- The digits of a number that is written without an exponent. -/
theorem scaled?_withPoint (c n : Nat) :
    scaled? (withPoint (Text.natDigits c) n) = some (c, -(n : Int)) := by
  unfold withPoint
  split
  · next hn =>
    have hwhole := scaled?_whole (natDigits_digits c) (Text.natDigits_ne_nil c) Text.endsDigits_nil
      (by simp) exponent?_nil
    rw [List.append_nil] at hwhole
    rw [hwhole, Number.digitsValue_natDigits, hn]
    rfl
  split
  · next hlong => exact scaled?_zeros hlong
  · next hlong => exact scaled?_split (Nat.lt_of_not_le hlong)

/-- The digits of a number that is written with an exponent. -/
theorem scaled?_leading (c : Nat) (e : Int) {x : Int} (hx : x = e + (Text.natDigits c).length - 1) :
    scaled? (leading (Text.natDigits c) ++
      'E' :: (if x < 0 then '-' else '+') :: Text.natDigits x.natAbs) = some (c, e) := by
  have hdigits := natDigits_digits c
  have hvalue := Number.digitsValue_natDigits c
  have hexponent := exponent?_natDigits x
  have hends : Text.EndsDigits ('E' :: (if x < 0 then '-' else '+') :: Text.natDigits x.natAbs) := by
    rintro c ⟨⟩
    rfl
  obtain ⟨d, ds, hds⟩ := List.exists_cons_of_ne_nil (Text.natDigits_ne_nil c)
  rw [hds] at hdigits hvalue hx ⊢
  cases ds with
  | nil =>
    rw [leading, scaled?_whole hdigits (List.cons_ne_nil d []) hends (by simp) hexponent, hvalue, hx]
    simp
  | cons d' ds =>
    obtain ⟨hfirst, hrest⟩ := List.forall_mem_cons.1 hdigits
    have hpoint := scaled?_point (List.forall_mem_singleton.2 hfirst) (List.cons_ne_nil d []) hrest
      hends hexponent
    rw [List.singleton_append, List.singleton_append, hvalue] at hpoint
    refine hpoint.trans ?_
    rw [hx]
    simp
    omega

/-- The text of a number without its sign. -/
def body (c : Nat) (e : Int) : List Char :=
  let ds := Text.natDigits c
  let adjusted := e + ds.length - 1
  if e ≤ 0 && -6 ≤ adjusted then withPoint ds (-e).toNat
  else leading ds ++ 'E' :: (if adjusted < 0 then '-' else '+') :: Text.natDigits adjusted.natAbs

theorem toChars_finite (negative : Bool) (c : Nat) (e : Int) :
    (finite negative c e).toChars = (if negative then ['-'] else []) ++ body c e := rfl

/-- **The digits and the exponent of a number are read back.** -/
theorem scaled?_body (c : Nat) (e : Int) : scaled? (body c e) = some (c, e) := by
  unfold body
  dsimp only
  split
  · next h =>
    simp only [Bool.and_eq_true, decide_eq_true_eq] at h
    rw [scaled?_withPoint, Int.toNat_of_nonneg (by omega), Int.neg_neg]
  · exact scaled?_leading c e rfl

/-! ## Characters -/

/-- Is the character a digit or another one that numbers are written with? -/
def IsMark (c : Char) : Prop := Text.isAsciiDigit c = true ∨ c ∈ "-+.E".toList

/-- Is it a text of such characters that begins with a digit? -/
structure IsNumeral (cs : List Char) : Prop where
  begins : ∃ c ds, cs = c :: ds ∧ Text.isAsciiDigit c = true
  marks : ∀ c ∈ cs, IsMark c

theorem isNumeral_digits {ds : List Char} (hds : ∀ c ∈ ds, Text.isAsciiDigit c = true)
    (hne : ds ≠ []) : IsNumeral ds := by
  obtain ⟨c, cs, rfl⟩ := List.exists_cons_of_ne_nil hne
  exact ⟨⟨c, cs, rfl, hds c (List.mem_cons_self ..)⟩, fun c hc => .inl (hds c hc)⟩

theorem IsNumeral.append {cs ds : List Char} (h : IsNumeral cs) (hds : ∀ c ∈ ds, IsMark c) :
    IsNumeral (cs ++ ds) := by
  obtain ⟨c, rest, rfl, hc⟩ := h.begins
  exact ⟨⟨c, rest ++ ds, rfl, hc⟩, fun d hd => (List.mem_append.1 hd).elim (h.marks d) (hds d)⟩

/-- Digits after a mark. -/
theorem isMark_cons {m : Char} (hm : IsMark m) {ds : List Char} (hds : ∀ c ∈ ds, IsMark c) :
    ∀ c ∈ m :: ds, IsMark c := List.forall_mem_cons.2 ⟨hm, hds⟩

theorem isMark_natDigits (n : Nat) : ∀ c ∈ Text.natDigits n, IsMark c :=
  fun c hc => .inl (natDigits_digits n c hc)

theorem isMark_point : IsMark '.' := .inr (by decide +kernel)

theorem isNumeral_withPoint (c n : Nat) : IsNumeral (withPoint (Text.natDigits c) n) := by
  have hdigits := natDigits_digits c
  have hmarks := isMark_natDigits c
  unfold withPoint
  split
  · exact isNumeral_digits hdigits (Text.natDigits_ne_nil c)
  split
  · have hzero : IsNumeral ['0'] := isNumeral_digits zero_digits (List.cons_ne_nil '0' [])
    refine hzero.append (isMark_cons isMark_point fun d hd => ?_)
    rcases List.mem_append.1 hd with hd | hd
    · rw [List.eq_of_mem_replicate hd]
      exact .inl rfl
    · exact hmarks d hd
  · next hn hlong =>
    have htake : (Text.natDigits c).take ((Text.natDigits c).length - n) ≠ [] := by
      rw [← List.length_pos_iff, List.length_take]
      omega
    exact (isNumeral_digits (fun d hd => hdigits d (List.mem_of_mem_take hd)) htake).append
      (isMark_cons isMark_point fun d hd => hmarks d (List.mem_of_mem_drop hd))

theorem isNumeral_leading (c : Nat) : IsNumeral (leading (Text.natDigits c)) := by
  have hdigits := natDigits_digits c
  obtain ⟨d, ds, hds⟩ := List.exists_cons_of_ne_nil (Text.natDigits_ne_nil c)
  rw [hds] at hdigits ⊢
  obtain ⟨hd, hrest⟩ := List.forall_mem_cons.1 hdigits
  have hfirst : IsNumeral [d] :=
    isNumeral_digits (List.forall_mem_singleton.2 hd) (List.cons_ne_nil d [])
  cases ds with
  | nil => exact hfirst
  | cons d' ds => exact hfirst.append (isMark_cons isMark_point fun c hc => .inl (hrest c hc))

theorem isNumeral_body (c : Nat) (e : Int) : IsNumeral (body c e) := by
  unfold body
  dsimp only
  split
  · exact isNumeral_withPoint c _
  · refine (isNumeral_leading c).append (isMark_cons (.inr (by decide +kernel))
      (isMark_cons ?_ (isMark_natDigits _)))
    split <;> exact .inr (by decide +kernel)

/-- Does a decimal reader leave the character as it is? -/
def IsOwn (c : Char) : Prop := Text.isBlank c = false ∧ c ≠ '_' ∧ asciiForm c = c

theorem isOwn_digit {c : Char} (h : Text.isAsciiDigit c = true) : IsOwn c := by
  refine ⟨Text.not_isBlank_of_isDigit (Text.isDigit_of_isAsciiDigit h), ?_, Number.asciiForm_digit h⟩
  rintro rfl
  cases h

/-- The letters and marks of numbers, and those of infinity. -/
theorem isOwn_mark {c : Char} (h : c ∈ "-+.EInfity".toList) : IsOwn c := by
  have all : "-+.EInfity".toList.all (fun c => decide (Text.isBlank c = false ∧ c ≠ '_' ∧
      asciiForm c = c)) = true := by decide +kernel
  have hc := List.all_eq_true.1 all c h
  rwa [decide_eq_true_iff] at hc

theorem IsMark.isOwn {c : Char} (h : IsMark c) : IsOwn c := by
  have all : "-+.E".toList ⊆ "-+.EInfity".toList := by decide +kernel
  exact h.elim isOwn_digit fun hc => isOwn_mark (all hc)

theorem ofText?_of_isOwn {cs : List Char} (h : ∀ c ∈ cs, IsOwn c) :
    ofText? (String.ofList cs) = ofAscii? cs := by
  have hfilter : cs.filter (· != '_') = cs :=
    List.filter_eq_self.2 fun c hc => bne_iff_ne.2 (h c hc).2.1
  have hmap : cs.map asciiForm = cs :=
    (List.map_congr_left fun c hc => (h c hc).2.2).trans (List.map_id cs)
  rw [ofText?, String.toList_ofList, Text.trim_eq_self fun c hc => (h c hc).1, hfilter, hmap]

theorem isOwn_of_mem_toChars {d : Decimal} (h : d.IsNumber) {c : Char} (hc : c ∈ d.toChars) :
    IsOwn c := by
  cases d with
  | nan _ _ _ => exact absurd h id
  | infinite negative =>
    have all : (infinite negative).toChars ⊆ "-+.EInfity".toList := by
      cases negative <;> decide +kernel
    exact isOwn_mark (all hc)
  | finite negative coefficient exponent =>
    rw [toChars_finite] at hc
    rcases List.mem_append.1 hc with hc | hc
    · cases negative with
      | false => cases hc
      | true =>
        rw [List.mem_singleton.1 hc]
        exact isOwn_mark (by decide +kernel)
    · exact ((isNumeral_body coefficient exponent).marks c hc).isOwn

/-- A digit is no sign. -/
theorem splitSign_digit {d : Char} (hd : Text.isAsciiDigit d = true) (cs : List Char) :
    splitSign (d :: cs) = (false, d :: cs) := by
  have hminus : d ≠ '-' := by
    rintro rfl
    cases hd
  have hplus : d ≠ '+' := by
    rintro rfl
    cases hd
  simp [splitSign, hminus, hplus]

/-- What begins with a digit, after a sign if there is one, is read as digits. -/
theorem ofAscii?_of_splitSign {cs ds : List Char} {d : Char} {negative : Bool}
    (hd : Text.isAsciiDigit d = true) (hsplit : splitSign cs = (negative, d :: ds)) :
    ofAscii? cs = (scaled? (d :: ds)).bind fun p => finite? negative p.1 p.2 := by
  have hne : ∀ c, Text.isAsciiDigit c = false → d ≠ c := by
    rintro c hc rfl
    rw [hd] at hc
    cases hc
  have hlower : d.toLower = d := by
    have hd := Text.isAsciiDigit_iff.1 hd
    have all : ∀ n : Fin 58, (Char.ofNat n).toLower = Char.ofNat n := by decide +kernel
    simpa [Char.ofNat_toNat] using all ⟨d.toNat, by omega⟩
  have hi := hne 'i' rfl
  unfold ofAscii?
  rw [hsplit]
  simp only [List.map_cons, hlower, List.cons.injEq, hi, false_and, decide_false,
    Bool.or_self, Bool.false_eq_true, if_false]
  split
  · next heq => exact absurd (List.cons.inj heq).1 (hne 'n' rfl)
  · next heq => exact absurd (List.cons.inj heq).1 (hne 's' rfl)
  · rfl

/-- **A number is read back from its text**, with the digits that it is written with. -/
theorem ofText?_toText {d : Decimal} (h : d.IsNumber) : ofText? d.toText = some d := by
  rw [toText, ofText?_of_isOwn fun c => isOwn_of_mem_toChars h]
  cases d with
  | nan _ _ _ => exact absurd h id
  | infinite negative => cases negative <;> rfl
  | finite negative c e =>
    obtain ⟨d, ds, hbody, hd⟩ := (isNumeral_body c e).begins
    have hsplit : splitSign ((if negative then ['-'] else []) ++ d :: ds) = (negative, d :: ds) := by
      cases negative with
      | true => rfl
      | false => exact splitSign_digit hd ds
    rw [toChars_finite, hbody, ofAscii?_of_splitSign hd hsplit, ← hbody, scaled?_body]
    exact h

end Listing.Decimal
