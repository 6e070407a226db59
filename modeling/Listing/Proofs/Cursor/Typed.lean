import Listing.Proofs.Cursor
import Listing.Proofs.Value.Typed

/-!
# Typed values survive a token

JSON knows no decimals, moments and dates, and a cursor with such parameters is written with their texts:
`Value.written`. A column reads these back as its own values (`ColumnType.Owns.coerced_written`). So
what is read of the token of a cursor has, under each name, what the column of a parameter reads as that
parameter: `Cursor.coerced_scalarParameter`. A parameter under the key of the direction is lost
(`Cursor.scalarParameter_directionKey`).
-/

namespace Listing

/-- The value that a token holds in the place of a parameter. -/
def Value.written : Value → Value
  | .decimal d => .text d.toText
  | .moment m => .text (m.toText ' ')
  | .date d => .text d.toText
  | v => v

theorem Json.renderChars_written (v : Value) : renderChars v.written = renderChars v := by
  cases v <;> rfl

theorem Json.renderEntries_written (es : Entries) :
    renderEntries (es.map fun e => (e.1, e.2.written)) = renderEntries es := by
  induction es with
  | nil => rfl
  | cons e es ih =>
    rw [List.map_cons, renderEntries, renderEntries, renderChars_written, ih, List.isEmpty_map]

theorem Json.Native.written_eq {v : Value} (h : Native v) : v.written = v := by
  cases v with
  | decimal d | moment m | date d => exact absurd h id
  | _ => rfl

/-! ## Reading values -/

/-- A text without a `Z` is read as it is. -/
theorem Coercion.withZeroOffset_eq {cs : List Char} (h : 'Z' ∉ cs) :
    withZeroOffset (String.ofList cs) = String.ofList cs := by
  rw [withZeroOffset, @String.toList_ofList cs]
  congr 1
  induction cs with
  | nil => rfl
  | cons c cs ih =>
    obtain ⟨hc, hcs⟩ := not_or.1 (List.mem_cons.not.1 h)
    rw [List.flatMap_cons, if_neg (Ne.symm hc), ih hcs, List.singleton_append]

theorem Moment.not_mem_toChars {m : Moment} (hoffset : m.offset = none) : 'Z' ∉ m.toChars ' ' := by
  rw [toChars_eq hoffset]
  intro h
  rcases List.mem_append.1 h with h | h
  · rcases Date.mem_toChars h with h | h <;> cases h
  · rcases List.mem_cons.1 h with h | h
    · cases h
    · rcases mem_timeChars h with h | h | h <;> cases h

namespace ColumnType.Owns

variable {t : ColumnType} {v : Value}

/-- **A column reads its own value back** from what a token holds in its place. -/
theorem coerced_written (h : t.Owns v) : t.coerced v.written = v := by
  cases h with
  | integer n => rfl
  | text s => rfl
  | boolean b => rfl
  | binary h => rfl
  | date h =>
    rw [Value.written, coerced, ofText, Date.ofText?_toText h]
    rfl
  | @moment withOffset m h hoffset =>
    have hread : Coercion.moment? (m.toText ' ') = some m := by
      rw [Coercion.moment?, Moment.toText,
        Coercion.withZeroOffset_eq (Moment.not_mem_toChars hoffset)]
      exact Moment.ofText?_toText h hoffset
    have hsame : m.withoutOffset = m := by rw [Moment.withoutOffset, ← hoffset]
    rw [Value.written, coerced, ofText, hread]
    simp only [hsame, ite_self]
  | decimal h =>
    rw [Value.written, coerced, ofText, Decimal.ofText?_toText h]
    rfl

/-- What a token holds in the place of a value is a scalar that JSON knows. -/
theorem native_written (h : t.Owns v) (ht : t ≠ .binary) (htext : v.hasText = true) :
    Json.Native v.written ∧ Json.nesting v.written = 0 ∧ v.written.isScalar = true := by
  cases h with
  | integer n => exact ⟨show n.natAbs < integerLimit by simpa [Value.hasText] using htext, rfl, rfl⟩
  | binary h => exact absurd rfl ht
  | _ => exact ⟨trivial, rfl, rfl⟩

end ColumnType.Owns

namespace Cursor

/-- Does the cursor hold values of columns that have a text, and values that JSON knows, under names
other than the key of the direction? -/
structure Carries (c : Cursor) : Prop where
  named : ∀ e ∈ c.parameters, ∃ name, e.1 = .text name
  distinct : Entries.Distinct c.parameters
  free : ∀ e ∈ c.parameters, e.1 ≠ directionKey
  values : ∀ e ∈ c.parameters, Json.Native e.2 ∨
    ∃ t : ColumnType, t.Owns e.2 ∧ t ≠ .binary ∧ e.2.hasText = true
  nesting : ∀ e ∈ c.parameters, Json.nesting e.2 < Json.maxDepth

/-- The cursor that a token is read as. -/
def written (c : Cursor) : Cursor where
  parameters := c.parameters.map fun e => (e.1, e.2.written)
  forward := c.forward

variable {c : Cursor}

theorem Carries.isName (h : c.Carries) : ∀ e ∈ c.parameters, e.1.IsName := fun e he => by
  obtain ⟨name, hname⟩ := h.named e he
  exact hname ▸ Value.isName_text name

theorem Carries.native (h : c.Carries) {e : Value × Value} (he : e ∈ c.parameters) :
    Json.Native e.2.written ∧ Json.nesting e.2.written < Json.maxDepth := by
  rcases h.values e he with hnative | ⟨t, howns, ht, htext⟩
  · rw [hnative.written_eq]
    exact ⟨hnative, h.nesting e he⟩
  · obtain ⟨hnative, hnesting, -⟩ := howns.native_written ht htext
    rw [hnesting]
    exact ⟨hnative, by decide⟩

theorem Carries.writable (h : c.Carries) : c.written.Writable where
  native := Json.nativeEntries_of_forall fun e he => by
    obtain ⟨f, hf, rfl⟩ := List.mem_map.1 he
    exact ⟨h.named f hf, (h.native hf).1⟩
  distinct := List.pairwise_map.2 h.distinct
  free := fun e he => by
    obtain ⟨f, hf, rfl⟩ := List.mem_map.1 he
    exact h.free f hf
  nesting := by
    have hall : ∀ e ∈ c.written.parameters, Json.nesting e.2 < Json.maxDepth := fun e he => by
      obtain ⟨f, hf, rfl⟩ := List.mem_map.1 he
      exact (h.native hf).2
    generalize c.written.parameters = es at hall
    induction es with
    | nil => decide
    | cons e es ih =>
      obtain ⟨he, hes⟩ := List.forall_mem_cons.1 hall
      exact Nat.max_lt.2 ⟨he, ih hes⟩

/-- A cursor is written as the one that its token is read as. -/
theorem Carries.encode_written (h : c.Carries) : c.written.encode = c.encode := by
  have hfree : ∀ e ∈ c.parameters, e.1.equal directionKey = false := fun e he =>
    (h.isName e he).equal_eq_false (Value.isName_text _) (h.free e he)
  have hpayload : c.payload = .map (c.parameters ++ [(directionKey, .bool c.forward)]) := by
    rw [payload, Entries.insert_new hfree]
  have hwritten : c.written.payload = .map (List.map (fun e => (e.1, e.2.written))
      (c.parameters ++ [(directionKey, .bool c.forward)])) := by
    rw [h.writable.payload_eq, List.map_append]
    rfl
  rw [encode, encode, hwritten, hpayload, Json.renderChars, Json.renderChars,
    Json.renderEntries_written]

/-- **Typed values survive a token.** -/
theorem coerced_scalarParameter (h : c.Carries) : ∃ token read, c.encode = .ok token ∧
    decode (.text token) = .ok read ∧ read.forward = c.forward ∧
    ∀ (name : String) (v : Value) (t : ColumnType), (.text name, v) ∈ c.parameters → t.Owns v →
      t ≠ .binary → v.hasText = true → ∃ w, read.scalarParameter (.text name) = .ok w ∧ t.coerced w = v := by
  obtain ⟨token, hencode, -, hdecode⟩ := exists_token h.writable
  refine ⟨token, c.written, h.encode_written ▸ hencode, hdecode, rfl,
    fun name v t hmem howns ht htext => ⟨v.written, ?_, howns.coerced_written⟩⟩
  have hget : c.written.parameters.get? (.text name) = some v.written := by
    refine Entries.get?_eq_some_of_mem (fun e he => ?_) h.writable.distinct
      (List.mem_map.2 ⟨_, hmem, rfl⟩)
    obtain ⟨f, hf, rfl⟩ := List.mem_map.1 he
    exact h.isName f hf
  obtain ⟨-, -, hscalar⟩ := howns.native_written ht htext
  exact scalarParameter_of_get? hget fun _ => hscalar

/-- A cursor with values of columns of several types. -/
def typed : Cursor where
  parameters := [(.text "price", .decimal (.finite true 1250 1)),
    (.text "created_at", .moment ⟨⟨2024, 2, 29⟩, 6, 30, 0, 500000, none⟩),
    (.text "released", .date ⟨2024, 2, 29⟩), (.text "ids", .list [.int 1])]

theorem coerced_scalarParameter_typed : ∃ token read, typed.encode = .ok token ∧
    decode (.text token) = .ok read ∧
    (∃ w, read.scalarParameter (.text "price") = .ok w ∧
      ColumnType.decimal.coerced w = .decimal (.finite true 1250 1)) ∧
    ∃ w, read.scalarParameter (.text "created_at") = .ok w ∧
      (ColumnType.moment false).coerced w =
        .moment ⟨⟨2024, 2, 29⟩, 6, 30, 0, 500000, none⟩ := by
  have hprice : ColumnType.decimal.Owns (.decimal (.finite true 1250 1)) := .decimal (by decide)
  have hmoment : (ColumnType.moment false).Owns
      (.moment ⟨⟨2024, 2, 29⟩, 6, 30, 0, 500000, none⟩) := .moment false (by decide) rfl
  have hcarries : typed.Carries :=
    { named := by simp [typed]
      distinct := show List.Pairwise _ _ by decide +kernel
      free := by simp [typed, directionKey]
      values := by
        simp only [typed, List.forall_mem_cons, List.not_mem_nil, false_implies, implies_true,
          and_true]
        exact ⟨.inr ⟨_, hprice, by simp, rfl⟩, .inr ⟨_, hmoment, by simp, rfl⟩,
          .inr ⟨_, .date (by decide), by simp, rfl⟩,
          .inl ⟨show 1 < integerLimit by decide +kernel, trivial⟩⟩
      nesting := by simp [typed, Json.nesting, Json.itemsNesting, Json.maxDepth] }
  obtain ⟨token, read, hencode, hdecode, -, hread⟩ := coerced_scalarParameter hcarries
  exact ⟨token, read, hencode, hdecode,
    hread "price" _ .decimal (List.mem_cons_self ..) hprice (by simp) rfl,
    hread "created_at" _ (.moment false) (List.mem_cons_of_mem _ (List.mem_cons_self ..)) hmoment
      (by simp) rfl⟩

/-- **A parameter under the key of the direction is lost.** -/
theorem scalarParameter_directionKey : ∃ token read,
    (⟨[(directionKey, .int 5)], true⟩ : Cursor).encode = .ok token ∧
    decode (.text token) = .ok read ∧ ColumnType.integer.Owns (.int 5) ∧
    read.scalarParameter directionKey = .error (.query (.cursorParameterMissing directionKey)) := by
  have hempty : Writable ⟨[], true⟩ := ⟨trivial, List.Pairwise.nil, nofun, by decide⟩
  have hsame : (⟨[(directionKey, .int 5)], true⟩ : Cursor).payload = (⟨[], true⟩ : Cursor).payload := by
    have hself : directionKey.equal directionKey = true := (Value.isName_text _).equal_self
    simp only [payload, Entries.insert, hself, if_true]
  obtain ⟨token, hencode, -, hdecode⟩ := exists_token hempty
  refine ⟨token, _, ?_, hdecode, .integer 5, rfl⟩
  rw [encode, hsame]
  exact hencode

end Cursor

end Listing
