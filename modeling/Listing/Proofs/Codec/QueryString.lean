import Listing.Proofs.Codec.Octets
import Listing.Proofs.Text.Split

/-!
# Query strings are read as they were written

The pairs of a query string are those that it was rendered from (`QueryString.parse_render`), since
what is written of a name or a value holds neither an ampersand nor an equality sign, and is read
back as it was (`Percent.decode_encode`).
-/

namespace Listing

theorem char_le_iff {a b : Char} : a ≤ b ↔ a.toNat ≤ b.toNat := by
  rw [Char.le_def, UInt32.le_iff_toNat_le]
  exact Iff.rfl

namespace Percent

/-! ## Texts -/

theorem toNat_lt_of_isPlain {c : Char} (h : isPlain c = true) : c.toNat < 128 := by
  simp only [isPlain, Bool.or_eq_true, Bool.and_eq_true, decide_eq_true_eq, beq_iff_eq,
    char_le_iff] at h
  have hz : 'z'.toNat = 122 := rfl
  have hZ : 'Z'.toNat = 90 := rfl
  have h9 : '9'.toNat = 57 := rfl
  obtain ((((((h | h) | h) | rfl) | rfl) | rfl) | rfl) := h
  · omega
  · omega
  · omega
  all_goals decide

theorem isPlain_hexDigit {n : Nat} (h : n < 16) : isPlain (hexDigit n) = true := by
  have all : ∀ k : Fin 16, isPlain (hexDigit k) = true := by decide
  exact all ⟨n, h⟩

theorem hexValue?_hexDigit {n : Nat} (h : n < 16) : hexValue? (hexDigit n) = some n := by
  have all : ∀ k : Fin 16, hexValue? (hexDigit k) = some k.val := by decide
  exact all ⟨n, h⟩

/-- Can the character stand in what is written of a text? -/
def isWritten (c : Char) : Bool := isPlain c || c == '+' || c == '%'

theorem isWritten_of_isPlain {c : Char} (h : isPlain c = true) : isWritten c = true := by
  simp only [isWritten, h, Bool.true_or]

theorem isWritten_of_mem_encodeChar {c d : Char} (h : d ∈ encodeChar c) : isWritten d = true := by
  rw [encodeChar] at h
  split at h
  · next hc =>
    rw [List.mem_singleton.1 h]
    exact isWritten_of_isPlain hc
  split at h
  · rw [List.mem_singleton.1 h]
    rfl
  obtain ⟨o, -, hd⟩ := List.mem_flatMap.1 h
  have ho := o.toNat_lt
  simp only [List.mem_cons, List.not_mem_nil, or_false] at hd
  obtain rfl | rfl | rfl := hd
  · rfl
  · exact isWritten_of_isPlain (isPlain_hexDigit (by omega))
  · exact isWritten_of_isPlain (isPlain_hexDigit (by omega))

theorem isWritten_of_mem_encode {s : String} {d : Char} (h : d ∈ encode s) :
    isWritten d = true := by
  obtain ⟨c, -, hd⟩ := List.mem_flatMap.1 h
  exact isWritten_of_mem_encodeChar hd

theorem toNat_lt_of_isWritten {c : Char} (h : isWritten c = true) : c.toNat < 128 := by
  simp only [isWritten, Bool.or_eq_true, beq_iff_eq] at h
  obtain (h | rfl) | rfl := h
  · exact toNat_lt_of_isPlain h
  · decide
  · decide

/-- What a plus sign is read as. -/
def blanked (c : Char) : Char := if c = '+' then ' ' else c

theorem toNat_blanked_lt {c : Char} (h : isWritten c = true) : (blanked c).toNat < 128 := by
  rw [blanked]
  split
  · decide
  · exact toNat_lt_of_isWritten h

theorem blanked_hexDigit {n : Nat} (h : n < 16) : blanked (hexDigit n) = hexDigit n := by
  have all : ∀ k : Fin 16, blanked (hexDigit k) = hexDigit k := by decide
  exact all ⟨n, h⟩

theorem decodeFrom_ascii (run cs : List Char) (h : ∀ c ∈ cs, c.toNat < 128) :
    decodeFrom run cs = Utf8.decodeLossy (octets (run.reverse ++ cs)) := by
  induction cs generalizing run with
  | nil => rw [decodeFrom, List.append_nil]
  | cons c cs ih =>
    rw [decodeFrom, if_pos (h c (List.mem_cons_self ..)),
      ih _ fun d hd => h d (List.mem_cons_of_mem _ hd), List.reverse_cons, List.append_assoc]
    rfl

theorem octets_other {c : Char} (h : c ≠ '%') (cs : List Char) :
    octets (c :: cs) = UInt8.ofNat c.toNat :: octets cs := by
  match cs with
  | [] => rfl
  | [_] => rfl
  | _ :: _ :: _ => rw [octets, if_neg h]

theorem octets_percent {m n : Nat} (hm : m < 16) (hn : n < 16) (cs : List Char) :
    octets ('%' :: hexDigit m :: hexDigit n :: cs) = UInt8.ofNat (16 * m + n) :: octets cs := by
  rw [octets, if_pos rfl, hexValue?_hexDigit hm, hexValue?_hexDigit hn]

theorem utf8EncodeChar_of_lt {c : Char} (h : c.toNat < 128) :
    String.utf8EncodeChar c = [UInt8.ofNat c.toNat] := by
  unfold String.utf8EncodeChar
  exact if_pos (Nat.le_of_lt_succ h)

/-- What is written of octets is read as those octets. -/
theorem octets_hex (os : List UInt8) (rest : List Char) :
    octets ((os.flatMap fun o => ['%', hexDigit (o.toNat / 16), hexDigit (o.toNat % 16)]).map blanked
      ++ rest) = os ++ octets rest := by
  induction os with
  | nil => rfl
  | cons o os ih =>
    have ho := o.toNat_lt
    simp only [List.flatMap_cons, List.cons_append, List.nil_append, List.map_cons]
    rw [blanked_hexDigit (by omega), blanked_hexDigit (by omega), show blanked '%' = '%' from rfl,
      octets_percent (by omega) (by omega), ih, Base64.ofNat_eq (a := o) (by omega)]

/-- What is written of a character is read as its octets, whatever comes after it. -/
theorem octets_encodeChar (c : Char) (rest : List Char) :
    octets ((encodeChar c).map blanked ++ rest) = String.utf8EncodeChar c ++ octets rest := by
  rw [encodeChar]
  split
  · next hc =>
    have hp : c ≠ '%' := by
      rintro rfl
      exact absurd hc (by decide)
    have hb : blanked c = c := if_neg (by rintro rfl; exact absurd hc (by decide))
    rw [List.map_singleton, hb, List.singleton_append, octets_other hp,
      utf8EncodeChar_of_lt (toNat_lt_of_isPlain hc)]
    rfl
  split
  · next hc =>
    subst hc
    exact octets_other (by decide) rest
  · exact octets_hex _ rest

theorem octets_encode (cs : List Char) :
    octets ((cs.flatMap encodeChar).map blanked) = Utf8.encode cs := by
  induction cs with
  | nil => rfl
  | cons c cs ih =>
    rw [List.flatMap_cons, List.map_append, octets_encodeChar, ih]
    rfl

/-- **A text is read back from what is written of it.** -/
theorem decode_encode (s : String) : decode (encode s) = s := by
  have h : ∀ c ∈ (encode s).map blanked, c.toNat < 128 := by
    intro c hc
    obtain ⟨d, hd, rfl⟩ := List.mem_map.1 hc
    exact toNat_blanked_lt (isWritten_of_mem_encode hd)
  have hb : decode (encode s) = String.ofList (decodeFrom [] ((encode s).map blanked)) := rfl
  rw [hb, decodeFrom_ascii _ _ h, List.reverse_nil, List.nil_append, encode, octets_encode,
    Utf8.decodeLossy_encode, String.ofList_toList]

end Percent

namespace QueryString

/-! ## Pairs -/

theorem splitFrom_renderPieces {ps : List (List Char)} (hne : ps ≠ []) (h : ∀ p ∈ ps, '&' ∉ p) :
    Text.splitFrom ['&'] 0 [] (renderPieces ps) = ps := by
  induction ps with
  | nil => exact absurd rfl hne
  | cons p ps ih =>
    have hp := h p (List.mem_cons_self ..)
    cases ps with
    | nil =>
      rw [renderPieces, Text.splitFrom_last hp]
      rfl
    | cons q qs =>
      rw [renderPieces, Text.splitFrom_cons hp,
        ih (List.cons_ne_nil _ _) fun r hr => h r (List.mem_cons_of_mem _ hr)]
      · rfl
      · exact List.cons_ne_nil _ _

theorem not_mem_renderPair {d : Char} (hd : Percent.isWritten d = false) (he : d ≠ '=')
    (p : String × String) : d ∉ renderPair p := by
  have hn : ∀ s : String, d ∉ Percent.encode s := by
    intro s hm
    rw [Percent.isWritten_of_mem_encode hm] at hd
    exact Bool.noConfusion hd
  rw [renderPair]
  intro h
  obtain h | h | h := List.mem_append.1 h |>.imp_right List.mem_cons.1
  · exact hn _ h
  · exact he h
  · exact hn _ h

/-- What `parse` makes of a piece. -/
def readPiece (piece : String) : String × String :=
  match Text.cutFirst '=' piece with
  | some (name, value) => (Percent.decode name.toList, Percent.decode value.toList)
  | none => (Percent.decode piece.toList, "")

theorem readPiece_renderPair (p : String × String) :
    readPiece (String.ofList (renderPair p)) = p := by
  have h : '=' ∉ Percent.encode p.1 := fun hm =>
    absurd (Percent.isWritten_of_mem_encode hm) (by decide)
  rw [readPiece, renderPair, Text.cutFirst_append h]
  simp only [String.toList_ofList, Percent.decode_encode]

theorem renderPair_ne_nil (p : String × String) : renderPair p ≠ [] := by
  simp [renderPair]

/-- **The pairs of a query string are those that it was rendered from.** -/
theorem parse_render (ps : List (String × String)) : parse (render ps) = ps := by
  have hp : parse (render ps) = (((Text.splitFrom ['&'] 0 [] (renderChars ps)).map
      String.ofList).filter fun piece => !piece.toList.isEmpty).map readPiece := by
    simp only [parse, render, Text.splitOn, String.toList_ofList]
    rfl
  rw [hp]
  cases ps with
  | nil => rfl
  | cons q qs =>
    have hsplit : Text.splitFrom ['&'] 0 [] (renderChars (q :: qs)) = (q :: qs).map renderPair := by
      refine splitFrom_renderPieces (by simp) ?_
      intro r hr
      obtain ⟨p, -, rfl⟩ := List.mem_map.1 hr
      exact not_mem_renderPair (by decide) (by decide) p
    rw [hsplit, List.filter_eq_self.2, List.map_map, List.map_map, List.map_congr_left, List.map_id]
    · intro p _
      exact readPiece_renderPair p
    · intro s hs
      simp only [List.mem_map] at hs
      obtain ⟨r, ⟨p, -, rfl⟩, rfl⟩ := hs
      simp [renderPair_ne_nil]

theorem not_mem_renderChars {d : Char} (hd : Percent.isWritten d = false) (he : d ≠ '=')
    (ha : d ≠ '&') (ps : List (String × String)) : d ∉ renderChars ps := by
  rw [renderChars]
  induction ps with
  | nil => exact List.not_mem_nil
  | cons p ps ih =>
    cases ps with
    | nil => exact not_mem_renderPair hd he p
    | cons q qs =>
      rw [List.map_cons, List.map_cons, renderPieces]
      · intro h
        obtain h | h | h := List.mem_append.1 h |>.imp_right List.mem_cons.1
        · exact not_mem_renderPair hd he p h
        · exact ha h
        · exact ih h
      · exact List.cons_ne_nil _ _

end QueryString

end Listing
