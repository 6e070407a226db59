import Listing.Proofs.Relational.Narrowing

/-!
# A text read by a column and by a value in memory

A column reads a text from a request as a value of its type, and a value in memory reads it as one of
its kind. Where the column could hold the value (`ColumnType.Samples`), both read every text alike but
for one thing: a column of moments leaves out the distance from universal time that a text may give, and
a value in memory keeps it (`Value.coercedLike_withoutOffset`).

The distance is what a moment without one is in no order with. So rows that hold such moments cannot be
put in order with a text that gives a distance, although they can with what the column reads:
`ColumnType.Samples.coerced_text`.
-/

namespace Listing

/-- Is the text read as a moment whose distance from universal time is known? -/
def Coercion.givesOffset (s : String) : Bool := (moment? s).any fun m => m.offset.isSome

/-- The value without a distance from universal time. -/
def Value.withoutOffset : Value → Value
  | .moment m => .moment m.withoutOffset
  | v => v

/-- Is the value in memory one of those that a column of the type stands for? -/
inductive ColumnType.Samples : ColumnType → Value → Prop
  | integer (n : Int) : Samples .integer (.int n)
  | boolean (b : Bool) : Samples .boolean (.bool b)
  | decimal (d : Decimal) : Samples .decimal (.decimal d)
  | moment {m : Moment} (h : m.offset = none) : Samples (.moment false) (.moment m)
  | date (d : Date) : Samples .date (.date d)
  | text (s : String) : Samples .text (.text s)

/-- Does the comparison ask which of two values is the lower one? -/
def Comparison.IsOrdering (c : Comparison) : Prop :=
  c = .less ∨ c = .atMost ∨ c = .greater ∨ c = .atLeast

/-- Such a comparison is answered by the order of two values. -/
theorem Comparison.IsOrdering.exists_holds? {c : Comparison} (h : c.IsOrdering) :
    ∃ asks : Option Ordering → Bool, ∀ v w, c.holds? v w = (v.compare? w).map asks := by
  rcases h with rfl | rfl | rfl | rfl <;> exact ⟨_, fun _ _ => rfl⟩

/-! ## Reading -/

section Reading

variable {t : ColumnType} {sample : Value} {m : Moment}

theorem Moment.withoutOffset_eq_self_iff : m.withoutOffset = m ↔ m.offset = none := by
  constructor
  · intro h
    rw [← h]
    rfl
  · intro h
    rw [Moment.withoutOffset, ← h]

/-- What a text is read as has no distance to leave out where nothing of its kind has one. -/
theorem Value.withoutOffset_getD {α : Type} (ofRead : α → Value)
    (h : ∀ a, (ofRead a).withoutOffset = ofRead a) (read : Option α) (s : String) :
    ((read.map ofRead).getD (.text s)).withoutOffset = (read.map ofRead).getD (.text s) := by
  cases read with
  | none => rfl
  | some a => exact h a

/-- **A column reads a text as a value in memory does**, without a distance from universal time. -/
theorem Value.coercedLike_withoutOffset (h : t.Samples sample) (s : String) :
    (Value.coercedLike sample (.text s)).withoutOffset = t.coerced (.text s) := by
  cases h with
  | moment h =>
    unfold coercedLike Coercion.textLike ColumnType.coerced ColumnType.ofText
    cases Coercion.moment? s <;> rfl
  | integer => exact withoutOffset_getD .int (fun _ => rfl) (Number.readInteger? s) s
  | boolean => exact withoutOffset_getD .bool (fun _ => rfl) (Coercion.truth? s) s
  | decimal => exact withoutOffset_getD .decimal (fun _ => rfl) (Decimal.ofText? s) s
  | date => exact withoutOffset_getD .date (fun _ => rfl) (Date.ofText? s) s
  | text => rfl

/-- The two differ where a text gives a distance, and nowhere else. -/
theorem ColumnType.Samples.coerced_eq_iff (h : t.Samples sample) (s : String) :
    t.coerced (.text s) = Value.coercedLike sample (.text s) ↔
      (t = .moment false → Coercion.givesOffset s = false) := by
  cases h with
  | moment h =>
    rw [imp_iff_right rfl]
    unfold Value.coercedLike Coercion.textLike coerced ofText Coercion.givesOffset
    cases Coercion.moment? s with
    | none => exact iff_of_true rfl rfl
    | some m =>
      show Value.moment m.withoutOffset = .moment m ↔ m.offset.isSome = false
      rw [Value.moment.injEq, Moment.withoutOffset_eq_self_iff, Option.isSome_eq_false_iff,
        Option.isNone_iff_eq_none]
  | _ => exact iff_of_true rfl fun h => by cases h

end Reading

/-! ## Comparing -/

section Comparing

variable {c : Comparison} {m m' : Moment}

/-- A moment compares with what is read of a text: with a moment, or else as a text with a text. -/
theorem comparable_moment (m : Moment) (s : String) : comparable (.moment m) (.text s) =
    .ok (match Coercion.moment? s with
      | some m' => (.moment m, .moment m')
      | none => (.text (m.toText ' '), .text s)) := by
  unfold comparable Value.coercedLike Coercion.textLike
  cases Coercion.moment? s <;> rfl

/-- Two moments without a distance are in order. -/
theorem compare?_moment (hm : m.offset = none) (hm' : m'.offset = none) :
    (Value.moment m).compare? (.moment m') = .ok (some (Ord.compare m.instant m'.instant)) := by
  show Value.compareMoments m m' = _
  rw [Value.compareMoments, hm, hm']
  rfl

/-- A moment without a distance and one with it are in no order. -/
theorem compare?_moment_apart (hm : m.offset = none) (hm' : m'.offset ≠ none) :
    (Value.moment m).compare? (.moment m') = .error .wrongKind := by
  obtain ⟨o, ho⟩ := Option.ne_none_iff_exists'.1 hm'
  show Value.compareMoments m m' = _
  rw [Value.compareMoments, hm, ho]
  rfl

/-- **A moment without a distance is in order with what a column reads**, and with a text itself only
where the text gives no distance. -/
theorem compares_moment (hc : c.IsOrdering) (hm : m.offset = none) (s : String) : ∃ answer,
    Predicate.compares c (.moment m) ((ColumnType.moment false).coerced (.text s)) = .ok answer ∧
    Predicate.compares c (.moment m) (.text s) =
      if Coercion.givesOffset s then .error .wrongKind else .ok answer := by
  obtain ⟨asks, hasks⟩ := hc.exists_holds?
  have htext : ∀ s, Predicate.compares c (.moment m) (.text s) =
      comparable (.moment m) (.text s) >>= fun p => c.holds? p.1 p.2 := fun s => rfl
  have hmoment : ∀ m', Predicate.compares c (.moment m) (.moment m') =
      ((Value.moment m).compare? (.moment m')).map asks := fun m' => hasks ..
  unfold ColumnType.coerced ColumnType.ofText Coercion.givesOffset
  rw [htext, comparable_moment]
  cases hread : Coercion.moment? s with
  | none =>
    refine ⟨asks (some (Ord.compare (m.toText ' ') s)), ?_, hasks ..⟩
    show Predicate.compares c (.moment m) (.text s) = _
    rw [htext, comparable_moment, hread]
    exact hasks ..
  | some m' =>
    refine ⟨_, (hmoment m'.withoutOffset).trans (congrArg _ (compare?_moment hm rfl)), ?_⟩
    show c.holds? (.moment m) (.moment m') = if m'.offset.isSome then _ else _
    rw [hasks]
    cases ho : m'.offset with
    | none =>
      have hsame : m'.withoutOffset = m' := Moment.withoutOffset_eq_self_iff.2 ho
      rw [compare?_moment hm ho, hsame]
      rfl
    | some o =>
      rw [compare?_moment_apart hm (by simp [ho])]
      rfl

end Comparing

/-- **A column and a value in memory read one text.** A column finds what a value in memory finds without
a distance from universal time, so that both find the same unless the values are moments and the text
gives a distance. Rows that hold moments without a distance are in order with what the column reads. They
are in order with the text itself if it gives no distance, and then alike; otherwise that is an error. -/
theorem ColumnType.Samples.coerced_text {t : ColumnType} {sample : Value} (h : t.Samples sample)
    (s : String) :
    t.coerced (.text s) = (Value.coercedLike sample (.text s)).withoutOffset ∧
    (t.coerced (.text s) = Value.coercedLike sample (.text s) ↔
      (t = .moment false → Coercion.givesOffset s = false)) ∧
    (t = .moment false → ∀ {row : Value} {name : String}, row.under name = sample →
      ∀ {c : Comparison}, c.IsOrdering → ∃ answer,
        (Predicate.compare (.text name) c (t.coerced (.text s))).holds row = .ok answer ∧
        (Predicate.compare (.text name) c (.text s)).holds row =
          if Coercion.givesOffset s then .error .wrongKind else .ok answer) := by
  refine ⟨(Value.coercedLike_withoutOffset h s).symm, h.coerced_eq_iff s,
    fun ht row name hrow c hc => ?_⟩
  subst ht
  cases h with
  | moment hm =>
    simp only [Predicate.holds, Value.readAttribute_text, ok_bind, hrow]
    exact compares_moment hc hm s

/-- Midnight, without a distance, and noon as a text that gives one. -/
theorem ColumnType.Samples.coerced_text_noon :
    (ColumnType.moment false).coerced (.text "2024-01-01T12:00:00Z") =
      .moment ⟨⟨2024, 1, 1⟩, 12, 0, 0, 0, none⟩ ∧
    Value.coercedLike (.moment ⟨⟨2024, 1, 1⟩, 0, 0, 0, 0, none⟩) (.text "2024-01-01T12:00:00Z") =
      .moment ⟨⟨2024, 1, 1⟩, 12, 0, 0, 0, some 0⟩ ∧
    (Predicate.compare (.text "at") .less (.text "2024-01-01T12:00:00Z")).holds
      (.map [(.text "at", .moment ⟨⟨2024, 1, 1⟩, 0, 0, 0, 0, none⟩)]) = .error .wrongKind := by
  have hlike : Value.coercedLike (.moment ⟨⟨2024, 1, 1⟩, 0, 0, 0, 0, none⟩)
      (.text "2024-01-01T12:00:00Z") = .moment ⟨⟨2024, 1, 1⟩, 12, 0, 0, 0, some 0⟩ := by
    with_unfolding_all rfl
  obtain ⟨hread, -, horder⟩ := coerced_text (.moment rfl : (ColumnType.moment false).Samples
    (.moment ⟨⟨2024, 1, 1⟩, 0, 0, 0, 0, none⟩)) "2024-01-01T12:00:00Z"
  have hrow : (Value.map [(.text "at", .moment ⟨⟨2024, 1, 1⟩, 0, 0, 0, 0, none⟩)]).under "at" =
      .moment ⟨⟨2024, 1, 1⟩, 0, 0, 0, 0, none⟩ := by with_unfolding_all rfl
  obtain ⟨answer, -, hanswer⟩ := horder rfl hrow (.inl rfl)
  refine ⟨hread.trans (congrArg Value.withoutOffset hlike), hlike, hanswer.trans ?_⟩
  rw [show Coercion.givesOffset "2024-01-01T12:00:00Z" = true by with_unfolding_all rfl, if_pos rfl]

end Listing
