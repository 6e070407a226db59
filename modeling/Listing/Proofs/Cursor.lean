import Listing.Cursor
import Listing.Proofs.Codec.Json

/-!
# Tokens are read as the cursors that they were written of

`Cursor.exists_token`: a cursor whose parameters JSON knows has a token, the token is made of
characters that stand for themselves in links, and it is read as that cursor.
-/

namespace Listing

namespace Json

theorem nativeEntries_append {es fs : Entries} (h₁ : NativeEntries es) (h₂ : NativeEntries fs) :
    NativeEntries (es ++ fs) := by
  induction es with
  | nil => exact h₂
  | cons e es ih =>
    obtain ⟨k, v⟩ := e
    exact ⟨h₁.1, h₁.2.1, ih h₁.2.2⟩

theorem entriesNesting_append (es fs : Entries) :
    entriesNesting (es ++ fs) = max (entriesNesting es) (entriesNesting fs) := by
  induction es with
  | nil => simp [entriesNesting]
  | cons e es ih =>
    obtain ⟨k, v⟩ := e
    simp [entriesNesting, ih, Nat.max_assoc]

theorem nativeEntries_of_forall {es : Entries}
    (h : ∀ e ∈ es, (∃ s, e.1 = .text s) ∧ Native e.2) : NativeEntries es := by
  induction es with
  | nil => exact trivial
  | cons e es ih =>
    obtain ⟨hkey, hvalue⟩ := h e (List.mem_cons_self ..)
    exact ⟨hkey, hvalue, ih fun e he => h e (List.mem_cons_of_mem _ he)⟩

theorem entriesNesting_eq_zero {es : Entries} (h : ∀ e ∈ es, nesting e.2 = 0) :
    entriesNesting es = 0 := by
  induction es with
  | nil => rfl
  | cons e es ih =>
    rw [entriesNesting, h e (List.mem_cons_self ..), ih fun e he => h e (List.mem_cons_of_mem _ he)]
    rfl

end Json

namespace Percent

theorem isBlank_of_isPlain {c : Char} (h : isPlain c = true) : Text.isBlank c = false := by
  have hc := toNat_lt_of_isPlain h
  have all : ∀ n : Fin 128, isPlain (Char.ofNat n) = true → Text.isBlank (Char.ofNat n) = false := by
    decide +kernel
  simpa [Char.ofNat_toNat] using all ⟨c.toNat, hc⟩ (by simpa [Char.ofNat_toNat] using h)

end Percent

namespace Cursor

/-- The parameter with a name is a scalar that stands under it. -/
theorem scalarParameter_of_get? {c : Cursor} {name : String} {v : Value}
    (hget : c.parameters.get? (.text name) = some v) (hv : v ≠ .null → v.isScalar = true) :
    c.scalarParameter (.text name) = .ok v := by
  have hparameter : c.parameter (.text name) = .ok v := by
    rw [parameter, hget]
    rfl
  rw [scalarParameter, hparameter, ok_bind]
  split
  · rfl
  · next hne => rw [if_pos (hv hne), pure_eq_ok]

/-! ## Tokens -/

/-- Can the cursor be written? Its parameters have texts as keys, other ones than the key of the
direction, and values that JSON knows. -/
structure Writable (c : Cursor) : Prop where
  native : Json.NativeEntries c.parameters
  distinct : Entries.Distinct c.parameters
  free : ∀ e ∈ c.parameters, e.1 ≠ directionKey
  nesting : Json.entriesNesting c.parameters < Json.maxDepth

/-- Is it the token of a cursor? -/
structure IsToken (token : String) : Prop where
  plain : ∀ c ∈ token.toList, Percent.isPlain c = true
  nonempty : token.toList ≠ []

theorem IsToken.not_blank {token : String} (h : IsToken token) :
    (Value.text token).isEmpty = false := by
  rw [Value.isEmpty, Text.isBlankText, List.all_eq_false]
  cases hcs : token.toList with
  | nil => exact absurd hcs h.nonempty
  | cons c cs =>
    refine ⟨c, List.mem_cons_self .., ?_⟩
    rw [Percent.isBlank_of_isPlain (h.plain c (hcs ▸ List.mem_cons_self ..))]
    exact Bool.false_ne_true

theorem Writable.apart {c : Cursor} (h : c.Writable) {e : Value × Value} (he : e ∈ c.parameters) :
    e.1.equal directionKey = false := by
  rw [← Bool.not_eq_true, directionKey, Value.equal_text]
  exact h.free e he

theorem Writable.payload_eq {c : Cursor} (h : c.Writable) :
    c.payload = .map (c.parameters ++ [(directionKey, .bool c.forward)]) := by
  rw [payload, Entries.insert_new fun e he => h.apart he]

theorem Writable.native_payload {c : Cursor} (h : c.Writable) : Json.Native c.payload := by
  rw [h.payload_eq, Json.Native]
  constructor
  · refine List.pairwise_append.2 ⟨h.distinct, List.pairwise_singleton .., fun e he f hf => ?_⟩
    rw [List.mem_singleton.1 hf]
    exact h.apart he
  · exact Json.nativeEntries_append h.native ⟨⟨_, rfl⟩, trivial, trivial⟩

theorem Writable.nesting_payload {c : Cursor} (h : c.Writable) :
    Json.nesting c.payload ≤ Json.maxDepth := by
  have := h.nesting
  rw [h.payload_eq, Json.nesting, Json.entriesNesting_append]
  simp only [Json.entriesNesting, Json.nesting]
  omega

theorem Writable.ofPayload {c : Cursor} (h : c.Writable) :
    ofPayload (c.parameters ++ [(directionKey, .bool c.forward)]) = c := by
  have hself : directionKey.equal directionKey = true := (Value.isName_text _).equal_self
  have herase : Entries.erase (c.parameters ++ [(directionKey, .bool c.forward)]) directionKey =
      c.parameters := by
    rw [Entries.erase, List.filter_append, List.filter_eq_self.2 fun e he => by simp [h.apart he]]
    simp [hself]
  have hget : Entries.get? (c.parameters ++ [(directionKey, .bool c.forward)]) directionKey =
      some (.bool c.forward) := by
    have hnone : Entries.get? c.parameters directionKey = none := by
      rw [Entries.get?, List.find?_eq_none.2 fun e he => by simp [h.apart he]]
      rfl
    rw [Entries.get?_append, hnone, Entries.get?_cons, if_pos hself]
    rfl
  rw [Cursor.ofPayload, herase, hget]
  rfl

/-- The base 64 of a text is read as the octets of the text. -/
theorem octets?_encode (cs : List Char) :
    octets? (String.ofList (Base64.encode (Utf8.encode cs))) = some (Utf8.encode cs) := by
  have hascii : (Base64.encode (Utf8.encode cs)).all (fun d => decide (d.toNat < 128)) = true := by
    rw [List.all_eq_true]
    intro d hd
    exact decide_eq_true (Percent.toNat_lt_of_isPlain (Base64.isPlain_of_mem_encode hd))
  rw [octets?, String.toList_ofList, if_pos hascii]
  exact Base64.decode?_encode _

/-- **A cursor has a token, and the token is read as the cursor.** -/
theorem exists_token {c : Cursor} (h : c.Writable) :
    ∃ token, c.encode = .ok token ∧ IsToken token ∧ decode (.text token) = .ok c := by
  obtain ⟨cs, hcs, hparse⟩ := Json.exists_parse_eq h.native_payload h.nesting_payload
  refine ⟨String.ofList (Base64.encode (Utf8.encode cs)), by simp [encode, hcs], ⟨?_, ?_⟩, ?_⟩
  · intro d hd
    rw [String.toList_ofList] at hd
    exact Base64.isPlain_of_mem_encode hd
  · have hne : cs ≠ [] := by
      rintro rfl
      cases hparse
    have hoctets : Utf8.encode cs ≠ [] := by
      intro he
      have := Utf8.decode?_encode cs
      rw [he] at this
      exact hne (Option.some.inj this).symm
    rw [String.toList_ofList]
    exact Base64.encode_ne_nil hoctets
  · have htext : ∀ s, (Value.text s).asText = .ok s := fun s => rfl
    have hpayload : payload? (String.ofList (Base64.encode (Utf8.encode cs))) =
        .ok (.map (c.parameters ++ [(directionKey, .bool c.forward)])) := by
      rw [payload?, octets?_encode, Option.bind_some, Utf8.decode?_encode]
      simp only [hparse, h.payload_eq]
    have hread := h.ofPayload
    unfold decode
    simp only [htext, ok_bind, hpayload, hread, pure_eq_ok]

end Cursor

end Listing
