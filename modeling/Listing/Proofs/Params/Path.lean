import Listing.Params
import Listing.Proofs.Cursor

/-!
# Paths and their names

A path is a key and the keys below it. `Params.nameOf` writes it as a name, `Params.path?` takes the
name apart again (`Params.path?_nameOf`), and putting a value at the place that the name writes is
putting it at the path: `Params.putNamed_nameOf`.
-/

namespace Listing.Params

/-! ## Keys -/

/-- Is the text one that stands for itself as a segment? -/
structure IsWord (s : String) : Prop where
  nonempty : s.toList ≠ []
  unbracketed : ∀ c ∈ s.toList, isBracket c = false
  notDigits : s.toList.all Text.isDigit = false

instance (s : String) : Decidable (IsWord s) :=
  decidable_of_iff ((!s.toList.isEmpty && !s.toList.any isBracket &&
    !s.toList.all Text.isDigit) = true) <| by
    simp only [Bool.and_eq_true, Bool.not_eq_true', List.isEmpty_eq_false_iff, List.any_eq_false,
      Bool.not_eq_true]
    exact ⟨fun h => ⟨h.1.1, h.1.2, h.2⟩, fun h => ⟨⟨h.nonempty, h.unbracketed⟩, h.notDigits⟩⟩

/-- Is the value a key that a segment stands for: a word, or a number from zero on? -/
def IsKey (k : Value) : Prop := (∃ s, k = .text s ∧ IsWord s) ∨ ∃ n : Nat, k = .int n

theorem isKey_text {s : String} (h : IsWord s) : IsKey (.text s) := .inl ⟨s, rfl, h⟩

theorem isKey_natCast (n : Nat) : IsKey (.int n) := .inr ⟨n, rfl⟩

theorem isKey_int {n : Int} (h : 0 ≤ n) : IsKey (.int n) := by
  obtain ⟨m, rfl⟩ := Int.eq_ofNat_of_zero_le h
  exact isKey_natCast m

theorem IsKey.isName {k : Value} (h : IsKey k) : k.IsName := by
  rcases h with ⟨s, rfl, -⟩ | ⟨n, rfl⟩
  · exact Value.isName_text s
  · exact Value.isName_int n

theorem toText_natCast (n : Nat) : (Value.int n).toText = natText n := intText_natCast n

theorem toText_text (s : String) : (Value.text s).toText = s := rfl

theorem not_isBracket_digit {c : Char} (h : Text.isAsciiDigit c = true) : isBracket c = false := by
  simp only [isBracket, Bool.or_eq_false_iff, beq_eq_false_iff_ne]
  constructor
  · rintro rfl
    exact absurd h (by decide)
  · rintro rfl
    exact absurd h (by decide)

theorem IsKey.toText_ne_nil {k : Value} (h : IsKey k) : k.toText.toList ≠ [] := by
  rcases h with ⟨s, rfl, hs⟩ | ⟨n, rfl⟩
  · exact hs.nonempty
  · rw [toText_natCast, natText_toList]
    exact Text.natDigits_ne_nil n

theorem IsKey.toText_unbracketed {k : Value} (h : IsKey k) :
    ∀ c ∈ k.toText.toList, isBracket c = false := by
  rcases h with ⟨s, rfl, hs⟩ | ⟨n, rfl⟩
  · exact hs.unbracketed
  · rw [toText_natCast, natText_toList]
    exact fun c hc => not_isBracket_digit (Text.isAsciiDigit_of_mem_natDigits hc)

theorem all_isDigit_natText (n : Nat) : (natText n).toList.all Text.isDigit = true := by
  rw [natText_toList, List.all_eq_true]
  exact fun c hc => Text.isDigit_of_isAsciiDigit (Text.isAsciiDigit_of_mem_natDigits hc)

theorem natText_injective {m n : Nat} (h : natText m = natText n) : m = n := by
  have hm := Number.digitsValue_natDigits m
  rw [← natText_toList, h, natText_toList, Number.digitsValue_natDigits] at hm
  exact hm.symm

/-- Different keys have different texts, since no word is made of digits. -/
theorem IsKey.toText_injective {a b : Value} (ha : IsKey a) (hb : IsKey b)
    (h : a.toText = b.toText) : a = b := by
  rcases ha with ⟨s, rfl, hs⟩ | ⟨m, rfl⟩ <;> rcases hb with ⟨t, rfl, ht⟩ | ⟨n, rfl⟩
  · rw [toText_text, toText_text] at h
    rw [h]
  · rw [toText_text, toText_natCast] at h
    have hd := hs.notDigits
    rw [h, all_isDigit_natText] at hd
    cases hd
  · rw [toText_text, toText_natCast] at h
    have hd := ht.notDigits
    rw [← h, all_isDigit_natText] at hd
    cases hd
  · rw [toText_natCast, toText_natCast] at h
    rw [natText_injective h]

theorem hasText_natCast {n : Nat} : (Value.int n).hasText = true ↔ n < integerLimit := by
  simp [Value.hasText]

/-- **The text of a key is the segment that stands for it**, whatever the map is. -/
theorem segmentKey_toText {k : Value} (h : IsKey k) (ht : k.hasText = true) (node : Entries) :
    segmentKey node k.toText = .ok k := by
  have hne : k.toText.toList.isEmpty = false := List.isEmpty_eq_false_iff.2 h.toText_ne_nil
  unfold segmentKey
  rw [hne, if_neg Bool.false_ne_true]
  rcases h with ⟨s, rfl, hs⟩ | ⟨n, rfl⟩
  · rw [toText_text, hs.notDigits]
    rfl
  · have hread := Number.readInteger?_intText (n := n) (by simpa [Value.hasText] using ht)
    rw [intText_natCast] at hread
    rw [toText_natCast, all_isDigit_natText, if_pos rfl, hread]

/-- Are all numbers among the keys natural ones? -/
def Natural (node : Entries) : Prop := ∀ e ∈ node, ∀ n, index? e.1 = some n → 0 ≤ n

theorem IsKey.natural {k : Value} (h : IsKey k) : ∀ n, index? k = some n → 0 ≤ n := by
  intro n hn
  rcases h with ⟨s, rfl, -⟩ | ⟨m, rfl⟩
  · cases hn
  · obtain rfl := Option.some.inj hn
    omega

/-- What a segment without brackets stands for is a key. -/
theorem isKey_of_segmentKey {node : Entries} (hn : Natural node) {segment : String}
    (hs : ∀ c ∈ segment.toList, isBracket c = false) {k : Value}
    (h : segmentKey node segment = .ok k) : IsKey k := by
  unfold segmentKey at h
  split at h
  · obtain rfl := Except.ok.inj h
    refine isKey_int ?_
    -- the greatest number is one of the keys, none of which is negative
    have hnum : ∀ n ∈ node.keys.filterMap index?, 0 ≤ n := by
      intro n hm
      obtain ⟨k, hk, hi⟩ := List.mem_filterMap.1 hm
      obtain ⟨e, he, rfl⟩ := List.mem_map.1 hk
      exact hn e he n hi
    unfold nextIndex
    split
    · exact Int.le_refl 0
    · next n ns hns =>
      rw [hns] at hnum
      have hle : ∀ (ms : List Int) (a : Int), a ≤ ms.foldl max a := by
        intro ms
        induction ms with
        | nil => exact fun a => Int.le_refl a
        | cons m ms ih => exact fun a => Int.le_trans (Int.le_max_left a m) (ih (max a m))
      have := hnum n (List.mem_cons_self ..)
      have := hle ns n
      omega
  next hne =>
  split at h
  · next hd =>
    split at h
    · next n hr =>
      obtain rfl := Except.ok.inj h
      exact isKey_int (Number.readInteger?_nonneg hd hr)
    · cases h
  · next hd =>
    obtain rfl := Except.ok.inj h
    exact isKey_text ⟨by simpa using hne, hs, by simpa using hd⟩

/-! ## Names -/

/-- The name of the place below `name` that keys lead to. -/
def extended (name : String) : List Value → String
  | [] => name
  | k :: ks => extended (name ++ "[" ++ k.toText ++ "]") ks

/-- The name of a path. -/
def nameOf (k : Value) (ks : List Value) : String := extended k.toText ks

/-- The characters of segments in brackets. -/
def groups : List Value → List Char
  | [] => []
  | k :: ks => '[' :: (k.toText.toList ++ ']' :: groups ks)

theorem extended_toList (name : String) (ks : List Value) :
    (extended name ks).toList = name.toList ++ groups ks := by
  induction ks generalizing name with
  | nil => simp [extended, groups]
  | cons k ks ih => simp [extended, groups, ih]

theorem segmentsFrom_open {segment : List Char} (h : ∀ c ∈ segment, isBracket c = false)
    (acc rest : List Char) :
    segmentsFrom (some acc) (segment ++ ']' :: rest) =
      (segmentsFrom none rest).map ((acc.reverse ++ segment) :: ·) := by
  induction segment generalizing acc with
  | nil =>
    rw [List.nil_append, segmentsFrom, if_pos rfl, List.append_nil]
  | cons c cs ih =>
    have hc := h c (List.mem_cons_self ..)
    simp only [isBracket, Bool.or_eq_false_iff, beq_eq_false_iff_ne] at hc
    rw [List.cons_append, segmentsFrom, if_neg hc.2, if_neg hc.1,
      ih fun d hd => h d (List.mem_cons_of_mem _ hd)]
    simp

theorem segmentsFrom_groups {ks : List Value}
    (h : ∀ k ∈ ks, ∀ c ∈ k.toText.toList, isBracket c = false) (rest : List Char) :
    segmentsFrom none (groups ks ++ rest) =
      (segmentsFrom none rest).map ((ks.map fun k => k.toText.toList) ++ ·) := by
  induction ks with
  | nil => simp [groups]
  | cons k ks ih =>
    rw [groups, List.cons_append, segmentsFrom, if_pos rfl, List.append_assoc, List.cons_append,
      segmentsFrom_open (h k (List.mem_cons_self ..)), ih fun l hl => h l (List.mem_cons_of_mem _ hl),
      Option.map_map]
    rfl

/-- **The name of a path is taken apart into the texts of its keys**, and what comes after it is
read as more segments. Where there are no segments yet nothing may come after it. -/
theorem path?_nameOf_append {k : Value} {ks : List Value} (hne : k.toText.toList ≠ [])
    (h : ∀ l ∈ k :: ks, ∀ c ∈ l.toText.toList, isBracket c = false) (after : String)
    (hafter : ks = [] → after = "") :
    path? (nameOf k ks ++ after) = (segmentsFrom none after.toList).map fun segments =>
      (k.toText, ks.map Value.toText ++ segments.map String.ofList) := by
  have hk : ∀ c ∈ k.toText.toList, (!isBracket c) = true := fun c hc => by
    rw [h k (List.mem_cons_self ..) c hc]
    rfl
  have hsplit : (groups ks ++ after.toList).takeWhile (fun c => !isBracket c) = [] ∧
      (groups ks ++ after.toList).dropWhile (fun c => !isBracket c) =
        groups ks ++ after.toList := by
    cases ks with
    | nil => simp [groups, hafter rfl]
    | cons l ls => simp [groups, isBracket]
  have hsegments := segmentsFrom_groups (fun l hl => h l (List.mem_cons_of_mem _ hl)) after.toList
  unfold path? nameOf
  simp only [String.toList_append, extended_toList, List.append_assoc,
    List.takeWhile_append_of_pos hk, List.dropWhile_append_of_pos hk, hsplit, List.append_nil,
    List.isEmpty_eq_false_iff.2 hne, Bool.false_eq_true, if_false, hsegments, Option.map_map,
    String.ofList_toList]
  congr 1
  funext segments
  simp

theorem path?_nameOf {k : Value} {ks : List Value} (hk : IsKey k) (hks : ∀ l ∈ ks, IsKey l) :
    path? (nameOf k ks) = some (k.toText, ks.map Value.toText) := by
  have hunbracketed : ∀ l ∈ k :: ks, ∀ c ∈ l.toText.toList, isBracket c = false :=
    List.forall_mem_cons.2 ⟨hk.toText_unbracketed, fun l hl => (hks l hl).toText_unbracketed⟩
  have h := path?_nameOf_append hk.toText_ne_nil hunbracketed "" fun _ => rfl
  simpa [segmentsFrom] using h

theorem unbracketed_of_segmentsFrom {cs : List Char} {state : Option (List Char)}
    (hstate : ∀ acc, state = some acc → ∀ c ∈ acc, isBracket c = false)
    {segments : List (List Char)} (h : segmentsFrom state cs = some segments) :
    ∀ s ∈ segments, ∀ c ∈ s, isBracket c = false := by
  induction cs generalizing state segments with
  | nil =>
    cases state with
    | none =>
      obtain rfl := Option.some.inj h
      intro s hs
      cases hs
    | some acc => cases h
  | cons c cs ih =>
    cases state with
    | none =>
      rw [segmentsFrom] at h
      split at h
      · refine ih ?_ h
        rintro acc hacc
        obtain rfl := Option.some.inj hacc
        exact fun _ hc => absurd hc List.not_mem_nil
      · split at h
        · obtain rfl := Option.some.inj h
          intro s hs
          cases hs
        · cases h
    | some acc =>
      have hacc := hstate acc rfl
      rw [segmentsFrom] at h
      split at h
      · obtain ⟨rest, hrest, rfl⟩ := Option.map_eq_some_iff.1 h
        intro s hs
        rcases List.mem_cons.1 hs with rfl | hs
        · exact fun d hd => hacc d (List.mem_reverse.1 hd)
        · refine ih ?_ hrest s hs
          rintro acc' hacc'
          cases hacc'
      · next hclose =>
        split at h
        · cases h
        · next hopen =>
          refine ih ?_ h
          rintro acc' hacc'
          obtain rfl := Option.some.inj hacc'
          intro d hd
          rcases List.mem_cons.1 hd with rfl | hd
          · simp [isBracket, hclose, hopen]
          · exact hacc d hd

theorem mem_takeWhile {p : Char → Bool} {cs : List Char} {c : Char} (h : c ∈ cs.takeWhile p) :
    p c = true := by
  induction cs with
  | nil => cases h
  | cons d cs ih =>
    rw [List.takeWhile_cons] at h
    split at h
    · next hd =>
      rcases List.mem_cons.1 h with rfl | h
      · exact hd
      · exact ih h
    · cases h

/-- The parts of a name are without brackets. -/
theorem unbracketed_of_path? {name head : String} {segments : List String}
    (h : path? name = some (head, segments)) :
    ∀ s ∈ head :: segments, ∀ c ∈ s.toList, isBracket c = false := by
  unfold path? at h
  dsimp only at h
  split at h
  · cases h
  obtain ⟨segs, hsegs, he⟩ := Option.map_eq_some_iff.1 h
  obtain ⟨rfl, rfl⟩ := Prod.mk.inj he
  intro s hs c hc
  rcases List.mem_cons.1 hs with rfl | hs
  · rw [String.toList_ofList] at hc
    simpa using mem_takeWhile hc
  · obtain ⟨seg, hseg, rfl⟩ := List.mem_map.1 hs
    rw [String.toList_ofList] at hc
    refine unbracketed_of_segmentsFrom ?_ hsegs seg hseg c hc
    rintro acc hacc
    cases hacc

end Listing.Params
