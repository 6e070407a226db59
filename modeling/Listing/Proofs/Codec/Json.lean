import Listing.Codec.Json
import Listing.Proofs.Number.Digits
import Listing.Proofs.Outcome
import Listing.Proofs.Value.Entries

/-!
# JSON is read as it was written

A value that JSON knows, with texts as keys, is read back from what is written of it:
`Json.exists_parse_eq`. The values are the `Json.Native` ones, nested no deeper than the reader
follows.
-/

namespace Listing.Json

/-! ## Texts -/

theorem hexValue?_digitChar {n : Nat} (h : n < 16) : hexValue? (Nat.digitChar n) = some n := by
  have all : ∀ k : Fin 16, hexValue? (Nat.digitChar k) = some k.val := by decide
  exact all ⟨n, h⟩

theorem hex_four {n : Nat} (h : n < 0x10000) :
    Text.hex 4 n = [(n / 4096).digitChar, (n / 256 % 16).digitChar, (n / 16 % 16).digitChar,
      (n % 16).digitChar] := by
  have hmod : n / 256 / 16 = n / 4096 := Nat.div_div_eq_div_mul ..
  have hmod' : n / 16 / 16 = n / 256 := Nat.div_div_eq_div_mul ..
  unfold Text.hex
  by_cases h₁ : n < 16
  · rw [Nat.toDigits_of_lt_base h₁, show n / 4096 = 0 by omega, show n / 256 % 16 = 0 by omega,
      show n / 16 % 16 = 0 by omega, show n % 16 = n by omega]
    rfl
  rw [Nat.toDigits_of_base_le (by decide) (Nat.not_lt.1 h₁)]
  by_cases h₂ : n < 256
  · rw [Nat.toDigits_of_lt_base (by omega), show n / 4096 = 0 by omega,
      show n / 256 % 16 = 0 by omega, show n / 16 % 16 = n / 16 by omega]
    rfl
  rw [Nat.toDigits_of_base_le (b := 16) (n := n / 16) (by decide) (by omega), hmod']
  by_cases h₃ : n < 4096
  · rw [Nat.toDigits_of_lt_base (by omega), show n / 4096 = 0 by omega,
      show n / 256 % 16 = n / 256 by omega]
    rfl
  rw [Nat.toDigits_of_base_le (b := 16) (n := n / 256) (by decide) (by omega), hmod,
    Nat.toDigits_of_lt_base (by omega)]
  rfl

/-- A unit of sixteen bits is read back from its escape. -/
theorem scanText_unitEscape {n : Nat} (h : n < 0x10000) (half : Option Nat) (rest : List Char) :
    scanText half (unitEscape n ++ rest) =
      (scanText (joinUnit half n).2 rest).map fun p => ((joinUnit half n).1 ++ p.1, p.2) := by
  have hu : unit? (n / 4096).digitChar (n / 256 % 16).digitChar (n / 16 % 16).digitChar
      (n % 16).digitChar = some n := by
    unfold unit?
    rw [hexValue?_digitChar (by omega), hexValue?_digitChar (by omega),
      hexValue?_digitChar (by omega), hexValue?_digitChar (by omega)]
    simp only [Option.pure_def, Option.bind_eq_bind, Option.bind_some, Option.some.injEq]
    omega
  rw [unitEscape, hex_four h]
  simp only [List.cons_append, List.nil_append]
  rw [scanText, hu]

/-- A character of its own. -/
theorem scanText_self {c : Char} (h₁ : 0x20 ≤ c.toNat) (h₂ : c ≠ '"') (h₃ : c ≠ '\\')
    (rest : List Char) :
    scanText none (c :: rest) = (scanText none rest).map fun p => (c :: p.1, p.2) := by
  rw [scanText]
  · rw [if_neg (by simp [h₃]; omega)]
    rfl
  · simp [h₂]
  · simp [h₃]
  · simp [h₃]

/-- An escape with one letter. -/
theorem scanText_escape {e c : Char} (h : shortEscape? e = some c) (rest : List Char) :
    scanText none ('\\' :: e :: rest) = (scanText none rest).map fun p => (c :: p.1, p.2) := by
  have he : e ≠ 'u' := by
    rintro rfl
    have hu : shortEscape? 'u' = none := by decide
    rw [hu] at h
    cases h
  rw [scanText]
  · rw [h]
    rfl
  · simp [he]

/-- **A character is read back from what is written of it**, whatever comes after it. -/
theorem scanText_renderChar (c : Char) (rest : List Char) :
    scanText none (renderChar c ++ rest) = (scanText none rest).map fun p => (c :: p.1, p.2) := by
  unfold renderChar
  split
  · next h =>
    simp only [Bool.or_eq_true, decide_eq_true_eq] at h
    rcases h with rfl | rfl
    · exact scanText_escape (by decide) rest
    · exact scanText_escape (by decide) rest
  split
  · next h => subst h; exact scanText_escape (by decide) rest
  split
  · next h => subst h; exact scanText_escape (by decide) rest
  split
  · next h => subst h; exact scanText_escape (by decide) rest
  split
  · next h => subst h; exact scanText_escape (by decide) rest
  split
  · next h => subst h; exact scanText_escape (by decide) rest
  split
  · next hq _ _ _ _ _ h =>
    simp only [Bool.or_eq_true, decide_eq_true_eq, not_or] at hq
    simp only [Bool.and_eq_true, decide_eq_true_eq] at h
    exact scanText_self h.1 hq.1 hq.2 rest
  have hc := Utf8.char_bounds c
  split
  · -- the number of a character is no half of a pair
    next h =>
    rw [scanText_unitEscape h, joinUnit, if_neg (by simp; omega), if_neg (by simp; omega)]
    simp [loneHalf, Char.ofNat_toNat]
  · next h =>
    have hlt : c.toNat < 0x110000 := by omega
    dsimp only
    rw [List.append_assoc, scanText_unitEscape (by omega), joinUnit, if_pos (by simp; omega),
      scanText_unitEscape (by omega), joinUnit, if_neg (by simp), if_pos (by simp; omega)]
    have hback : Char.ofNat (0x10000 + (0xd800 + (c.toNat - 0x10000) / 0x400 - 0xd800) * 0x400 +
        (0xdc00 + (c.toNat - 0x10000) % 0x400 - 0xdc00)) = c := Utf8.char_ofNat_eq (by omega)
    dsimp only
    rw [hback]
    simp [loneHalf, Function.comp_def]

theorem scanText_render (cs rest : List Char) :
    scanText none (cs.flatMap renderChar ++ '"' :: rest) = some (cs, rest) := by
  induction cs with
  | nil => rfl
  | cons c cs ih =>
    rw [List.flatMap_cons, List.append_assoc, scanText_renderChar, ih]
    rfl

/-! ## Words and numbers -/

/-- Is the rest of a JSON text such that a value may end before it? -/
def Closes (rest : List Char) : Prop := ∀ c, rest.head? = some c → c ∈ [',', ']', '\x7d']

theorem closes_nil : Closes [] := by
  intro c h
  cases h

theorem closes_cons {c : Char} (h : c ∈ [',', ']', '\x7d']) (rest : List Char) :
    Closes (c :: rest) := by
  intro d hd
  obtain rfl := Option.some.inj hd
  exact h

theorem Closes.endsDigits {rest : List Char} (h : Closes rest) : Text.EndsDigits rest := by
  intro c hc
  have hmem := h c hc
  simp only [List.mem_cons, List.not_mem_nil, or_false] at hmem
  rcases hmem with rfl | rfl | rfl <;> rfl

theorem scanFraction_closes {rest : List Char} (h : Closes rest) :
    scanFraction rest = ([], rest) := by
  unfold scanFraction
  split
  · exact absurd (h '.' rfl) (by decide)
  · rfl

theorem scanExponent_closes {rest : List Char} (h : Closes rest) :
    scanExponent rest = ([], rest) := by
  cases rest with
  | nil => rfl
  | cons c rest =>
    have hc := h c rfl
    simp only [List.mem_cons, List.not_mem_nil, or_false] at hc
    rcases hc with rfl | rfl | rfl <;> rfl

/-- The digits of a number are read to the last one. -/
theorem scanWhole_natDigits (n : Nat) {rest : List Char} (h : Closes rest) :
    scanWhole (Text.natDigits n ++ rest) = some (Text.natDigits n, rest) := by
  have hd : ∀ c ∈ Text.natDigits n, Text.isAsciiDigit c = true := fun c hc =>
    Text.isAsciiDigit_of_mem_natDigits hc
  obtain ⟨ht, hr⟩ := Text.takeWhile_digits hd h.endsDigits
  rcases Nat.eq_zero_or_pos n with rfl | hn
  · rfl
  unfold scanWhole
  split
  · next rest' he =>
    have hz := Text.head?_natDigits hn
    cases hds : Text.natDigits n with
    | nil => exact absurd hds (Text.natDigits_ne_nil n)
    | cons d ds =>
      rw [hds, List.cons_append] at he
      rw [hds, (List.cons.inj he).1] at hz
      exact absurd rfl hz
  · rw [ht, hr]
    have hne : (Text.natDigits n).isEmpty = false :=
      List.isEmpty_eq_false_iff.2 (Text.natDigits_ne_nil n)
    simp [hne]

/-- No word begins with a digit, or with a minus sign before one. -/
theorem find?_words_number {n : Int} (rest : List Char) :
    words.find? (fun w => w.1.toList.isPrefixOf ((intText n).toList ++ rest)) = none := by
  rw [List.find?_eq_none]
  have hd : ∀ m : Nat, ∃ d ds, Text.natDigits m = d :: ds ∧ Text.isAsciiDigit d = true := by
    intro m
    cases hds : Text.natDigits m with
    | nil => exact absurd hds (Text.natDigits_ne_nil m)
    | cons d ds =>
      exact ⟨d, ds, rfl, Text.isAsciiDigit_of_mem_natDigits (hds ▸ List.mem_cons_self ..)⟩
  obtain ⟨d, ds, hds, hd⟩ := hd n.natAbs
  intro w hw
  rw [intText_toList, hds]
  have hne : ∀ c, Text.isAsciiDigit c = false → (c == d) = false := by
    intro c hc
    rw [beq_eq_false_iff_ne]
    rintro rfl
    rw [hd] at hc
    cases hc
  simp only [words, List.mem_cons, List.not_mem_nil, or_false] at hw
  split
  · rcases hw with rfl | rfl | rfl | rfl | rfl | rfl <;>
      simp [List.isPrefixOf, hne 'I' (by decide)]
  · rcases hw with rfl | rfl | rfl | rfl | rfl | rfl <;>
      simp [List.isPrefixOf, hne 'I' (by decide), hne 'n' (by decide), hne 't' (by decide),
        hne 'f' (by decide), hne 'N' (by decide), hne '-' (by decide)]

theorem scanNumber_intText {n : Int} (hn : n.natAbs < integerLimit) {rest : List Char}
    (h : Closes rest) :
    scanNumber ((intText n).toList ++ rest) = some (.int n, rest) := by
  have hread := Number.readInteger?_intText hn
  rw [← String.ofList_toList (s := intText n)] at hread
  rw [intText_toList] at hread ⊢
  unfold scanNumber
  by_cases hneg : n < 0
  · rw [if_pos hneg] at hread ⊢
    simp only [List.cons_append, scanWhole_natDigits _ h, scanFraction_closes h,
      scanExponent_closes h, Option.bind_eq_bind, Option.bind_some, List.nil_append, hread]
    rfl
  · rw [if_neg hneg] at hread ⊢
    have hm : ∀ r, Text.natDigits n.natAbs ++ rest ≠ '-' :: r := by
      intro r he
      have hmem : '-' ∈ Text.natDigits n.natAbs := by
        cases hds : Text.natDigits n.natAbs with
        | nil => exact absurd hds (Text.natDigits_ne_nil _)
        | cons d ds =>
          rw [hds, List.cons_append] at he
          rw [(List.cons.inj he).1]
          exact List.mem_cons_self ..
      exact absurd (Text.isAsciiDigit_of_mem_natDigits hmem) (by decide)
    split
    next mark rest' he =>
    split at he
    · next r hr => exact absurd hr (hm r)
    · obtain ⟨rfl, rfl⟩ := Prod.mk.inj he
      simp [scanWhole_natDigits _ h, scanFraction_closes h, scanExponent_closes h, hread]

theorem scanScalar_int {n : Int} (hn : n.natAbs < integerLimit) {rest : List Char}
    (h : Closes rest) :
    scanScalar ((intText n).toList ++ rest) = some (.int n, rest) := by
  unfold scanScalar
  rw [find?_words_number]
  exact scanNumber_intText hn h

/-! ## Values -/

mutual

/-- Is the value one that JSON knows, with distinct texts as keys and integers that have a text? -/
def Native : Value → Prop
  | .null => True
  | .bool _ => True
  | .int n => n.natAbs < integerLimit
  | .text _ => True
  | .list vs => NativeItems vs
  | .map es => Entries.Distinct es ∧ NativeEntries es
  | _ => False

/-- Are all items such values? -/
def NativeItems : List Value → Prop
  | [] => True
  | v :: vs => Native v ∧ NativeItems vs

/-- Are all keys texts and all values such values? -/
def NativeEntries : List (Value × Value) → Prop
  | [] => True
  | (k, v) :: es => (∃ s, k = .text s) ∧ Native v ∧ NativeEntries es

end

mutual

/-- How deeply lists and maps are nested in a value. -/
def nesting : Value → Nat
  | .list vs => itemsNesting vs + 1
  | .map es => entriesNesting es + 1
  | _ => 0

/-- How deeply lists and maps are nested in the items of a list. -/
def itemsNesting : List Value → Nat
  | [] => 0
  | v :: vs => max (nesting v) (itemsNesting vs)

/-- How deeply lists and maps are nested in the values of entries. -/
def entriesNesting : List (Value × Value) → Nat
  | [] => 0
  | (_, v) :: es => max (nesting v) (entriesNesting es)

end

/-- Does a text begin with a character that is no white space and closes no list? -/
def Begins (cs : List Char) : Prop := ∃ c ds, cs = c :: ds ∧ isSpace c = false ∧ c ≠ ']'

theorem skipSpace_cons {c : Char} (h : isSpace c = false) (rest : List Char) :
    skipSpace (c :: rest) = c :: rest := by simp [skipSpace, h]

theorem Begins.skipSpace {cs : List Char} (h : Begins cs) (rest : List Char) :
    skipSpace (cs ++ rest) = cs ++ rest := by
  obtain ⟨c, ds, rfl, hc, -⟩ := h
  simp [Json.skipSpace, hc]

theorem Begins.head_ne {cs : List Char} (h : Begins cs) (rest : List Char) :
    (cs ++ rest).head? ≠ some ']' := by
  obtain ⟨c, ds, rfl, -, hc⟩ := h
  simpa using hc

/-- Is a value read back from a text, whatever comes after it? -/
def ReadsBack (v : Value) (cs : List Char) : Prop :=
  Begins cs ∧ ∀ fuel depth rest, 2 * cs.length ≤ fuel → nesting v ≤ depth → Closes rest →
    parseValue fuel depth (cs ++ rest) = .ok (v, rest)

/-- What begins with no mark is a word or a number. -/
theorem parseValue_scalar {c : Char} (h₁ : c ≠ '"') (h₂ : c ≠ '[') (h₃ : c ≠ '\x7b')
    (fuel depth : Nat) (cs : List Char) :
    parseValue (fuel + 1) depth (c :: cs) = orBad (scanScalar (c :: cs)) := by
  unfold parseValue
  simp only [h₁, h₂, h₃, if_false]

theorem readsBack_word {w : String} {v : Value} {c : Char} {cs : List Char}
    (hw : w.toList = c :: cs) (hc : isSpace c = false ∧ c ≠ ']' ∧ c ≠ '"' ∧ c ≠ '[' ∧ c ≠ '\x7b')
    (h : ∀ rest, scanScalar (w.toList ++ rest) = some (v, rest)) :
    ReadsBack v w.toList := by
  refine ⟨⟨c, cs, hw, hc.1, hc.2.1⟩, fun fuel depth rest hf _ _ => ?_⟩
  have hlen : 0 < w.toList.length := by rw [hw]; exact Nat.succ_pos _
  obtain ⟨fuel, rfl⟩ : ∃ n, fuel = n + 1 := ⟨fuel - 1, by omega⟩
  have hs := h rest
  rw [hw, List.cons_append] at hs ⊢
  rw [parseValue_scalar hc.2.2.1 hc.2.2.2.1 hc.2.2.2.2, hs]
  rfl

theorem readsBack_int {n : Int} (hn : n.natAbs < integerLimit) :
    ReadsBack (.int n) (intText n).toList := by
  have hb : ∃ c ds, (intText n).toList = c :: ds ∧ (c = '-' ∨ Text.isAsciiDigit c = true) := by
    rw [intText_toList]
    split
    · exact ⟨'-', _, rfl, .inl rfl⟩
    · cases hds : Text.natDigits n.natAbs with
      | nil => exact absurd hds (Text.natDigits_ne_nil _)
      | cons d ds =>
        exact ⟨d, ds, rfl, .inr (Text.isAsciiDigit_of_mem_natDigits (hds ▸ List.mem_cons_self ..))⟩
  obtain ⟨c, ds, hcs, hc⟩ := hb
  have hne : ∀ d : Char, d ≠ '-' → Text.isAsciiDigit d = false → c ≠ d := by
    rintro d hd₁ hd₂ rfl
    rcases hc with rfl | hc
    · exact hd₁ rfl
    · rw [hc] at hd₂
      cases hd₂
  have hspace : isSpace c = false := by
    simp only [isSpace, Bool.or_eq_false_iff, beq_eq_false_iff_ne]
    exact ⟨⟨⟨hne ' ' (by decide) (by decide), hne '\t' (by decide) (by decide)⟩,
      hne '\n' (by decide) (by decide)⟩, hne '\r' (by decide) (by decide)⟩
  refine ⟨⟨c, ds, hcs, hspace, hne ']' (by decide) (by decide)⟩, fun fuel depth rest hf _ hr => ?_⟩
  have hlen : 0 < (intText n).toList.length := by rw [hcs]; exact Nat.succ_pos _
  obtain ⟨fuel, rfl⟩ : ∃ n, fuel = n + 1 := ⟨fuel - 1, by omega⟩
  have hs := scanScalar_int hn hr
  rw [hcs, List.cons_append] at hs ⊢
  rw [parseValue_scalar (hne _ (by decide) (by decide)) (hne _ (by decide) (by decide))
    (hne _ (by decide) (by decide)), hs]
  rfl

theorem readsBack_text (s : String) : ReadsBack (.text s) (renderText s) := by
  refine ⟨⟨'"', _, rfl, by decide, by decide⟩, fun fuel depth rest hf _ _ => ?_⟩
  have hlen : 0 < (renderText s).length := Nat.succ_pos _
  obtain ⟨fuel, rfl⟩ : ∃ n, fuel = n + 1 := ⟨fuel - 1, by omega⟩
  have hs := scanText_render s.toList rest
  rw [renderText, List.cons_append, List.cons_append, List.append_assoc, List.singleton_append]
  unfold parseValue
  simp [hs, orBad]

theorem asText_int {n : Int} (h : n.natAbs < integerLimit) :
    (Value.int n).asText = .ok (intText n) := by
  rw [Value.asText, if_pos (by simpa [Value.hasText] using h)]
  rfl

/-- Are the items of a list read back from a text, up to the closing bracket? -/
def ItemsReadBack (vs : List Value) (cs : List Char) : Prop :=
  Begins cs ∧ ∀ fuel depth rest, 2 * cs.length + 1 ≤ fuel → itemsNesting vs ≤ depth →
    parseItems fuel depth (cs ++ ']' :: rest) = .ok (vs, rest)

/-- Are the members of an object read back from a text, up to the closing brace? -/
def MembersReadBack (es : List (Value × Value)) (cs : List Char) : Prop :=
  (∃ ds, cs = '"' :: ds) ∧ ∀ fuel depth rest, 2 * cs.length + 1 ≤ fuel →
    entriesNesting es ≤ depth → parseMembers fuel depth (cs ++ '\x7d' :: rest) = .ok (es, rest)

section

variable {v : Value} {vs : List Value} {es : List (Value × Value)} {cs ds : List Char}

/-- A list is read back if it has no items, or they are read back. -/
theorem readsBack_list (hcs : vs = [] → cs = []) (h : vs ≠ [] → ItemsReadBack vs cs) :
    ReadsBack (.list vs) ('[' :: cs ++ [']']) := by
  refine ⟨⟨'[', _, rfl, by decide, by decide⟩, fun fuel depth rest hf hd _ => ?_⟩
  simp only [List.cons_append, List.length_cons, List.length_append, List.length_nil] at hf
  obtain ⟨fuel, rfl⟩ : ∃ n, fuel = n + 1 := ⟨fuel - 1, by omega⟩
  obtain ⟨depth, rfl⟩ : ∃ n, depth = n + 1 := ⟨depth - 1, by simp [nesting] at hd; omega⟩
  rw [List.cons_append, List.cons_append, List.append_assoc, List.singleton_append]
  unfold parseValue
  cases vs with
  | nil =>
    obtain rfl := hcs rfl
    rfl
  | cons v vs =>
    obtain ⟨hb, hp⟩ := h (List.cons_ne_nil _ _)
    have hp := hp fuel depth rest (by omega) (by simpa [nesting] using hd)
    have hne := hb.head_ne (']' :: rest)
    simp only [hb.skipSpace, hne, if_false, hp]
    rfl

/-- A map with distinct keys is read back if it has no entries, or they are read back. -/
theorem readsBack_map (hdistinct : Entries.Distinct es) (hcs : es = [] → cs = [])
    (h : es ≠ [] → MembersReadBack es cs) : ReadsBack (.map es) ('\x7b' :: cs ++ ['\x7d']) := by
  refine ⟨⟨'\x7b', _, rfl, by decide, by decide⟩, fun fuel depth rest hf hd _ => ?_⟩
  simp only [List.cons_append, List.length_cons, List.length_append, List.length_nil] at hf
  obtain ⟨fuel, rfl⟩ : ∃ n, fuel = n + 1 := ⟨fuel - 1, by omega⟩
  obtain ⟨depth, rfl⟩ : ∃ n, depth = n + 1 := ⟨depth - 1, by simp [nesting] at hd; omega⟩
  rw [List.cons_append, List.cons_append, List.append_assoc, List.singleton_append]
  unfold parseValue
  cases es with
  | nil =>
    obtain rfl := hcs rfl
    rfl
  | cons e es =>
    obtain ⟨⟨ds, rfl⟩, hp⟩ := h (List.cons_ne_nil _ _)
    have hp := hp fuel depth rest (by omega) (by simpa [nesting] using hd)
    have hne : ('"' :: ds ++ '\x7d' :: rest).head? ≠ some '\x7d' := by simp
    have hs := skipSpace_cons (c := '"') (by decide) (ds ++ '\x7d' :: rest)
    rw [List.cons_append] at hp hne ⊢
    simp only [hs, hne, if_false, hp, ok_bind, Entries.ofPairs_eq_self hdistinct]
    rfl

/-- The last item of a list is read back up to the closing bracket. -/
theorem ReadsBack.item (h : ReadsBack v cs) : ItemsReadBack [v] cs := by
  obtain ⟨hb, hv⟩ := h
  refine ⟨hb, fun fuel depth rest hf hd => ?_⟩
  obtain ⟨fuel, rfl⟩ : ∃ n, fuel = n + 1 := ⟨fuel - 1, by omega⟩
  have hv := hv fuel depth (']' :: rest) (by omega) (by simpa [itemsNesting] using hd)
    (closes_cons (by simp) rest)
  unfold parseItems
  simp [hv, skipSpace_cons (c := ']') (by decide)]

/-- An item is read back up to the comma, and the others after it. -/
theorem ReadsBack.items (h : ReadsBack v cs) (hs : ItemsReadBack vs ds) :
    ItemsReadBack (v :: vs) (cs ++ ',' :: ds) := by
  obtain ⟨hb, hv⟩ := h
  obtain ⟨hb', hvs⟩ := hs
  constructor
  · obtain ⟨c, cs, rfl, hc⟩ := hb
    exact ⟨c, _, rfl, hc⟩
  intro fuel depth rest hf hd
  rw [itemsNesting] at hd
  obtain ⟨fuel, rfl⟩ : ∃ n, fuel = n + 1 := ⟨fuel - 1, by omega⟩
  simp only [List.length_append, List.length_cons] at hf
  have hv := hv fuel depth (',' :: (ds ++ ']' :: rest)) (by omega) (by omega)
    (closes_cons (by simp) _)
  have hvs := hvs fuel depth rest (by omega) (by omega)
  unfold parseItems
  rw [List.append_assoc, List.cons_append, hv]
  simp [skipSpace_cons (c := ',') (by decide), hb'.skipSpace, hvs]

/-- The last member of an object is read back up to the closing brace. -/
theorem ReadsBack.member (h : ReadsBack v cs) (s : String) :
    MembersReadBack [(.text s, v)] (renderText s ++ ':' :: cs) := by
  obtain ⟨hb, hv⟩ := h
  refine ⟨⟨_, rfl⟩, fun fuel depth rest hf hd => ?_⟩
  obtain ⟨fuel, rfl⟩ : ∃ n, fuel = n + 1 := ⟨fuel - 1, by omega⟩
  simp only [List.length_append, List.length_cons] at hf
  have hv := hv fuel depth ('\x7d' :: rest) (by omega) (by simpa [entriesNesting] using hd)
    (closes_cons (by simp) rest)
  unfold parseMembers
  simp only [renderText, List.cons_append, List.append_assoc, List.nil_append, scanText_render,
    orBad, ok_bind]
  simp [skipSpace_cons (c := ':') (by decide), skipSpace_cons (c := '\x7d') (by decide),
    hb.skipSpace, hv]

/-- A member is read back up to the comma, and the others after it. -/
theorem ReadsBack.members (h : ReadsBack v cs) (s : String) (hs : MembersReadBack es ds) :
    MembersReadBack ((.text s, v) :: es) (renderText s ++ ':' :: cs ++ ',' :: ds) := by
  obtain ⟨hb, hv⟩ := h
  obtain ⟨⟨ds, rfl⟩, hes⟩ := hs
  refine ⟨⟨_, rfl⟩, fun fuel depth rest hf hd => ?_⟩
  rw [entriesNesting] at hd
  obtain ⟨fuel, rfl⟩ : ∃ n, fuel = n + 1 := ⟨fuel - 1, by omega⟩
  simp only [List.length_append, List.length_cons] at hf
  have hv := hv fuel depth (',' :: '"' :: (ds ++ '\x7d' :: rest)) (by omega) (by omega)
    (closes_cons (by simp) _)
  have hes := hes fuel depth rest (by simp only [List.length_cons]; omega) (by omega)
  unfold parseMembers
  simp only [renderText, List.cons_append, List.append_assoc, List.nil_append, scanText_render,
    orBad, ok_bind] at hes ⊢
  simp [skipSpace_cons (c := ':') (by decide), skipSpace_cons (c := ',') (by decide),
    skipSpace_cons (c := '"') (by decide), hb.skipSpace, hv, hes]

end

mutual

/-- **A value that JSON knows is read back from what is written of it.** -/
theorem exists_readsBack : (v : Value) → Native v →
    ∃ cs, renderChars v = .ok cs ∧ ReadsBack v cs
  | .null, _ => ⟨_, rfl, readsBack_word (w := "null") rfl (by decide) fun _ => rfl⟩
  | .bool true, _ => ⟨_, rfl, readsBack_word (w := "true") rfl (by decide) fun _ => rfl⟩
  | .bool false, _ => ⟨_, rfl, readsBack_word (w := "false") rfl (by decide) fun _ => rfl⟩
  | .int n, h => by
    refine ⟨(intText n).toList, ?_, readsBack_int h⟩
    simp [renderChars, asText_int h]
  | .text s, _ => ⟨_, rfl, readsBack_text s⟩
  | .list vs, h => by
    obtain ⟨cs, hcs, hnone, hitems⟩ := exists_itemsReadBack vs h
    exact ⟨'[' :: cs ++ [']'], by simp [renderChars, hcs], readsBack_list hnone hitems⟩
  | .map es, h => by
    obtain ⟨cs, hcs, hnone, hmembers⟩ := exists_membersReadBack es h.2
    exact ⟨'\x7b' :: cs ++ ['\x7d'], by simp [renderChars, hcs], readsBack_map h.1 hnone hmembers⟩

/-- What is written of the items of a list is read back up to the closing bracket. -/
theorem exists_itemsReadBack : (vs : List Value) → NativeItems vs →
    ∃ cs, renderItems vs = .ok cs ∧ (vs = [] → cs = []) ∧ (vs ≠ [] → ItemsReadBack vs cs)
  | [], _ => ⟨[], rfl, fun _ => rfl, fun h => absurd rfl h⟩
  | v :: vs, h => by
    obtain ⟨cs, hcs, hv⟩ := exists_readsBack v h.1
    obtain ⟨ds, hds, -, hvs⟩ := exists_itemsReadBack vs h.2
    refine ⟨cs ++ if vs.isEmpty then ds else ',' :: ds, by simp [renderItems, hcs, hds], nofun,
      fun _ => ?_⟩
    cases vs with
    | nil =>
      obtain rfl := Except.ok.inj hds
      simpa using hv.item
    | cons w ws => exact hv.items (hvs (List.cons_ne_nil _ _))

/-- What is written of the members of an object is read back up to the closing brace. -/
theorem exists_membersReadBack : (es : List (Value × Value)) → NativeEntries es →
    ∃ cs, renderEntries es = .ok cs ∧ (es = [] → cs = []) ∧ (es ≠ [] → MembersReadBack es cs)
  | [], _ => ⟨[], rfl, fun _ => rfl, fun h => absurd rfl h⟩
  | (k, v) :: es, h => by
    obtain ⟨⟨s, rfl⟩, h₁, h₂⟩ := h
    obtain ⟨cs, hcs, hv⟩ := exists_readsBack v h₁
    obtain ⟨ds, hds, -, hes⟩ := exists_membersReadBack es h₂
    refine ⟨renderText s ++ ':' :: cs ++ if es.isEmpty then ds else ',' :: ds,
      by simp [renderEntries, keyText, hcs, hds], nofun, fun _ => ?_⟩
    cases es with
    | nil =>
      obtain rfl := Except.ok.inj hds
      simpa using hv.member s
    | cons e es => exact hv.members s (hes (List.cons_ne_nil _ _))

end

/-- **A whole text is read back**, if its value is not nested too deeply. -/
theorem exists_parse_eq {v : Value} (h : Native v) (hn : nesting v ≤ maxDepth) :
    ∃ cs, renderChars v = .ok cs ∧ parse cs = .ok v := by
  obtain ⟨cs, hcs, hb, hp⟩ := exists_readsBack v h
  refine ⟨cs, hcs, ?_⟩
  have hs := hb.skipSpace []
  have hp := hp (2 * cs.length + 2) maxDepth [] (by omega) hn closes_nil
  rw [List.append_nil] at hs hp
  unfold parse
  rw [hs, hp]
  rfl

end Listing.Json
