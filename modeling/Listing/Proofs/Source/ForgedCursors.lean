import Listing.Proofs.Codec.Nesting
import Listing.Proofs.Source.CursorBlocks
import Listing.Proofs.Value.Integer

/-!
# Forged cursors

Any text can stand where the token of a cursor is expected. A collection gives the page at the position
that a text is read as, and refuses a text that is read as none: `Source.forged_cursors`. The exceptions
are a text that JSON nested too deeply is read from, and one with a position of too many digits, which
counts as an integer and cannot be read (`Cursor.IsDeep`, `Cursor.IsLong`).
-/

namespace Listing

namespace Cursor

/-- The characters that a token is the base 64 of. -/
def characters? (token : String) : Option (List Char) := (octets? token).bind Utf8.decode?

/-- Is JSON that is nested too deeply read from the token? -/
def IsDeep (token : String) : Prop :=
  ∃ cs, characters? token = some cs ∧ Json.parse cs = .error .tooDeep

/-- Is this what the token holds as its position? -/
def Holds (token : String) (v : Value) : Prop :=
  ∃ c, decode (.text token) = .ok c ∧ c.parameters.get? (.text "offset") = some v

/-- Is the position in the token a text of too many digits? -/
def IsLong (token : String) : Prop := ∃ v, Holds token v ∧ v.Overlong

variable {token : String} {c : Cursor} {v : Value}

/-! ## Tokens -/

theorem decode_text (token : String) : decode (.text token) =
    (payload? token >>= fun payload =>
      match payload with
      | .map es => .ok (ofPayload es)
      | _ => .error (.query .invalidCursor)) := rfl

theorem decode_of_isDeep (h : IsDeep token) : decode (.text token) = .error .tooDeep := by
  obtain ⟨cs, hcs, hdeep⟩ := h
  rw [characters?] at hcs
  rw [decode_text, payload?, hcs]
  simp only [hdeep]
  rfl

theorem decode_cases (token : String) :
    (∃ c, decode (.text token) = .ok c) ∨ IsDeep token ∨
      decode (.text token) = .error (.query .invalidCursor) := by
  rw [decode_text, payload?]
  split
  · exact .inr (.inr rfl)
  · next cs hcs =>
    split
    · next payload _ =>
      cases payload with
      | map es => exact .inl ⟨_, rfl⟩
      | _ => exact .inr (.inr rfl)
    · next hdeep => exact .inr (.inl ⟨cs, hcs, hdeep⟩)
    · exact .inr (.inr rfl)

theorem isDeep_encode {cs : List Char} (h : Json.parse cs = .error .tooDeep) :
    IsDeep (String.ofList (Base64.encode (Utf8.encode cs))) :=
  ⟨cs, by rw [characters?, octets?_encode, Option.bind_some, Utf8.decode?_encode], h⟩

/-- Anything that JSON knows can be forged into a token. -/
theorem exists_holds (h : Json.Native v) (hnesting : Json.nesting v < Json.maxDepth) :
    ∃ token, Holds token v := by
  have hwritable : Writable ⟨[(.text "offset", v)], true⟩ :=
    { native := ⟨⟨_, rfl⟩, h, trivial⟩
      distinct := List.pairwise_singleton ..
      free := by simp [directionKey]
      nesting := by simpa [Json.entriesNesting] using hnesting }
  obtain ⟨token, -, -, hdecode⟩ := exists_token hwritable
  have hself : (Value.text "offset").equal (.text "offset") = true :=
    (Value.isName_text _).equal_self
  exact ⟨token, _, hdecode, by rw [Entries.get?_cons, if_pos hself]⟩

/-! ## Positions -/

theorem offset_of_none (h : c.parameters.get? (.text "offset") = none) :
    c.offset = .error (.query (.cursorParameterMissing (.text "offset"))) := by
  unfold offset parameter
  rw [h]
  rfl

theorem offset_of_some (h : c.parameters.get? (.text "offset") = some v) : c.offset =
    if v.isIntegerToken then
      v.toInt >>= fun n => if 0 ≤ n then .ok n else .error (.query .invalidCursor)
    else .error (.query .invalidCursor) := by
  have hparameter : c.parameter (.text "offset") = .ok v := by
    unfold parameter
    rw [h]
    rfl
  unfold offset
  rw [hparameter, ok_bind]
  cases v.isIntegerToken with
  | false => rfl
  | true =>
    refine bind_congr fun n => ?_
    by_cases hn : 0 ≤ n
    · rw [if_neg (by omega), if_pos hn, pure_eq_ok]
    · rw [if_pos (by omega), if_neg hn]

theorem offset_of_writes (h : c.parameters.get? (.text "offset") = some v) {i : Nat}
    (hv : v.Writes i) : c.offset = .ok (i : Int) := by
  rw [offset_of_some h, if_pos hv.isIntegerToken, hv.toInt, ok_bind, if_pos (Int.natCast_nonneg i)]

theorem offset_of_overlong (h : c.parameters.get? (.text "offset") = some v) (hv : v.Overlong) :
    c.offset = .error .badValue := by
  rw [offset_of_some h, if_pos hv.isIntegerToken, hv.toInt, error_bind]

theorem offset_cases (h : c.parameters.get? (.text "offset") = some v) :
    (∃ i : Nat, v.Writes i) ∨ v.Overlong ∨ c.offset = .error (.query .invalidCursor) := by
  by_cases htoken : v.isIntegerToken = true
  · rcases Value.isIntegerToken_iff.1 htoken with ⟨n, hn⟩ | hlong
    · by_cases hpos : 0 ≤ n
      · exact .inl ⟨n.toNat, by rwa [Int.toNat_of_nonneg hpos]⟩
      · rw [offset_of_some h, if_pos htoken, hn.toInt, ok_bind, if_neg hpos]
        exact .inr (.inr rfl)
    · exact .inr (.inl hlong)
  · rw [offset_of_some h, if_neg htoken]
    exact .inr (.inr rfl)

end Cursor

/-! ## Pages -/

namespace Source

open Collection (StandsFor)

variable {c : Collection} {all : List Value} {token : String} {v : Value} {n : Nat}
  {e : Error}

/-- The error that is met where a position is read from a token is the error of the page. -/
theorem cursorPage_eq_error (hall : c.get = .ok all) (hn : 0 < n) (name : Value)
    (h : (Cursor.decode (.text token) >>= Cursor.offset) = .error e) :
    (collection c).cursorPage (.int n) .null name (.text token) = .error e := by
  obtain ⟨rows, hrows, -⟩ := bind_eq_ok_iff.1 hall
  have hselect : c.selectAll .null = .ok c := rfl
  unfold cursorPage Collection.cursorPage
  simp only [integerOr_natCast _ hn, hselect, hrows, ok_bind]
  -- in both directions the position is read before anything else is done with it
  rcases bind_eq_error_iff.1 h with hdecode | ⟨cursor, hdecode, hoffset⟩
  · rw [hdecode, error_map, error_bind]
  · simp only [hdecode, ok_map, ok_bind, Collection.bounds, hoffset, error_bind]

theorem exists_cursorPage_of_writes (hall : c.get = .ok all) (hn : 0 < n) (name : Value)
    (h : Cursor.Holds token v) {i : Nat} (hv : v.Writes i) :
    ∃ p, (collection c).cursorPage (.int n) .null name (.text token) = .ok p := by
  obtain ⟨cursor, hread, hget⟩ := h
  have hvalue : StandsFor (.text token) i cursor.forward :=
    .cursor (by simp) hread (Cursor.offset_of_writes hget hv)
  obtain ⟨p, hp, -⟩ := exists_cursorPage hall hvalue hn name
  exact ⟨p, hp⟩

theorem cursorPage_of_isDeep (hall : c.get = .ok all) (hn : 0 < n) (name : Value)
    (h : Cursor.IsDeep token) :
    (collection c).cursorPage (.int n) .null name (.text token) = .error .tooDeep :=
  cursorPage_eq_error hall hn name (by rw [Cursor.decode_of_isDeep h, error_bind])

theorem cursorPage_of_isLong (hall : c.get = .ok all) (hn : 0 < n) (name : Value)
    (h : Cursor.IsLong token) :
    (collection c).cursorPage (.int n) .null name (.text token) = .error .badValue := by
  obtain ⟨v, ⟨cursor, hread, hget⟩, hlong⟩ := h
  exact cursorPage_eq_error hall hn name
    (by rw [hread, ok_bind, Cursor.offset_of_overlong hget hlong])

/-- What is answered to a token, and why. -/
inductive Answered (token : String) : Except Error CursorPage → Prop
  | page {p : CursorPage} {v : Value} {i : Nat} (hholds : Cursor.Holds token v) (hv : v.Writes i) :
    Answered token (.ok p)
  | deep (h : Cursor.IsDeep token) : Answered token (.error .tooDeep)
  | long (h : Cursor.IsLong token) : Answered token (.error .badValue)
  | invalid : Answered token (.error (.query .invalidCursor))
  | missing : Answered token (.error (.query (.cursorParameterMissing (.text "offset"))))

theorem answered_cursorPage (hall : c.get = .ok all) (hn : 0 < n) (name : Value) (token : String) :
    Answered token ((collection c).cursorPage (.int n) .null name (.text token)) := by
  rcases Cursor.decode_cases token with ⟨cursor, hread⟩ | hdeep | hinvalid
  · cases hget : cursor.parameters.get? (.text "offset") with
    | none =>
      rw [cursorPage_eq_error hall hn name (by rw [hread, ok_bind, Cursor.offset_of_none hget])]
      exact .missing
    | some v =>
      have hholds : Cursor.Holds token v := ⟨cursor, hread, hget⟩
      rcases Cursor.offset_cases hget with ⟨i, hi⟩ | hlong | hinvalid
      · obtain ⟨p, hp⟩ := exists_cursorPage_of_writes hall hn name hholds hi
        rw [hp]
        exact .page hholds hi
      · rw [cursorPage_of_isLong hall hn name ⟨v, hholds, hlong⟩]
        exact .long ⟨v, hholds, hlong⟩
      · rw [cursorPage_eq_error hall hn name (by rw [hread, ok_bind, hinvalid])]
        exact .invalid
  · rw [cursorPage_of_isDeep hall hn name hdeep]
    exact .deep hdeep
  · rw [cursorPage_eq_error hall hn name (by rw [hinvalid, error_bind])]
    exact .invalid

/-- **A text is the token of a page or is refused.** There is a page exactly if the token holds a
position from zero on. Every other text is refused as no cursor or as one without a position, unless
JSON that is nested too deeply is read from it, which takes more brackets than may be open at once, or
its position is a text of too many digits. -/
theorem forged_cursors (hall : c.get = .ok all) (hn : 0 < n) (name : Value) (token : String) :
    ((∃ p, (collection c).cursorPage (.int n) .null name (.text token) = .ok p) ↔
      ∃ v, ∃ i : Nat, Cursor.Holds token v ∧ v.Writes i) ∧
    ((collection c).cursorPage (.int n) .null name (.text token) = .error .tooDeep ↔
      Cursor.IsDeep token) ∧
    ((collection c).cursorPage (.int n) .null name (.text token) = .error .badValue ↔
      Cursor.IsLong token) ∧
    (∀ e, (collection c).cursorPage (.int n) .null name (.text token) = .error e →
      e = .tooDeep ∨ e = .badValue ∨ e.reported = .query .invalidCursor ∨
        e.reported = .query (.cursorParameterMissing (.text "offset"))) ∧
    (Cursor.IsDeep token →
      ∃ cs, Cursor.characters? token = some cs ∧ Json.maxDepth < Json.openings cs) := by
  have hanswered := answered_cursorPage hall hn name token
  refine ⟨⟨?page, ?_⟩, ⟨?deep, cursorPage_of_isDeep hall hn name⟩,
    ⟨?long, cursorPage_of_isLong hall hn name⟩, ?errors, ?brackets⟩
  case page =>
    rintro ⟨p, hp⟩
    rw [hp] at hanswered
    cases hanswered with
    | page hholds hv => exact ⟨_, _, hholds, hv⟩
  · rintro ⟨v, i, hholds, hv⟩
    exact exists_cursorPage_of_writes hall hn name hholds hv
  case deep =>
    intro h
    rw [h] at hanswered
    cases hanswered with
    | deep hdeep => exact hdeep
  case long =>
    intro h
    rw [h] at hanswered
    cases hanswered with
    | long hlong => exact hlong
  case errors =>
    intro e h
    rw [h] at hanswered
    cases hanswered with
    | deep => exact .inl rfl
    | long => exact .inr (.inl rfl)
    | invalid => exact .inr (.inr (.inl rfl))
    | missing => exact .inr (.inr (.inr rfl))
  case brackets =>
    rintro ⟨cs, hcs, hdeep⟩
    exact ⟨cs, hcs, Json.lt_openings_of_tooDeep hdeep⟩

/-- Of three numbers, the page at the second one is shown; a position of thousands of digits is not
read, and neither are brackets that are nested too deeply. -/
theorem forged_cursors_aboveOne :
    aboveOne.get = .ok ([2, 5, 3].map fun n => .map [(.text "n", .int n)]) ∧
    (∃ token p, (collection aboveOne).cursorPage (.int 2) .null .null (.text token) = .ok p) ∧
    (∃ token, (collection aboveOne).cursorPage (.int 2) .null .null (.text token) =
      .error .badValue) ∧
    ∃ token, (collection aboveOne).cursorPage (.int 2) .null .null (.text token) =
      .error .tooDeep := by
  have hget : aboveOne.get =
      .ok ([2, 5, 3].map fun n => .map [(.text "n", .int n)]) := by with_unfolding_all rfl
  have hforged := forged_cursors hget (n := 2) (by decide) .null
  refine ⟨hget, ?page, ?long, ?deep⟩
  case page =>
    obtain ⟨token, hholds⟩ := Cursor.exists_holds (v := .text "1") trivial (by decide)
    refine ⟨token, (hforged token).1.2 ⟨_, 1, hholds, ?_⟩⟩
    exact .digits (s := "1") (by decide) (List.all_eq_true.1 (by decide)) (by decide)
  case long =>
    have hlong : (Value.text (String.ofList (List.replicate (Number.maxDigits + 1) '9'))).Overlong :=
      Value.overlong_replicate (by decide) (Nat.lt_succ_self _)
    obtain ⟨token, hholds⟩ := Cursor.exists_holds (v := .text (String.ofList
      (List.replicate (Number.maxDigits + 1) '9'))) trivial (Nat.zero_lt_succ _)
    exact ⟨token, (hforged token).2.2.1.2 ⟨_, hholds, hlong⟩⟩
  case deep =>
    have hdeep := Cursor.isDeep_encode (Json.parse_replicate (Nat.lt_succ_self Json.maxDepth) [])
    exact ⟨_, (hforged _).2.1.2 hdeep⟩

end Source

end Listing
